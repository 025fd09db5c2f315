import Landform.Graph.Wiring
import Landform.Proofs.Decimal.Numeral
import Mathlib.Data.List.Nodup

/-!
# Ports of nodes

The id of a port tells its node and its role, and the roles of a node differ from one another. So
the ports of nodes with different ids have different ids, and a look-up by id finds a port exactly
when one of the nodes has it.

1. `portId_injective`: node and role from the id of a port.
2. `port_unique`: among nodes with different ids, a port is known by its id.
3. `find_entry`: what a look-up in the ports of nodes finds.
-/

namespace Landform

open Decimal

/-! ## 1. Port ids -/

theorem underscore_notMem_integerText (n : Int) : '_' ∉ (integerText n).toList := by
  intro member
  rcases mem_integerText member with same | digit
  · exact absurd same (by decide)
  · exact absurd digit (by decide)

/-- A list falls into what stands before and behind the first occurrence of a member. -/
theorem append_cons_inj {α : Type} {a : α} {l l' r r' : List α} (fresh : a ∉ l) (fresh' : a ∉ l')
    (same : l ++ a :: r = l' ++ a :: r') : l = l' ∧ r = r' := by
  induction l generalizing l' with
  | nil =>
    cases l' with
    | nil => exact ⟨rfl, (List.cons.inj same).2⟩
    | cons b _ => exact absurd (List.mem_cons.mpr (.inl (List.cons.inj same).1)) fresh'
  | cons b tail ih =>
    cases l' with
    | nil => exact absurd (List.mem_cons.mpr (.inl (List.cons.inj same).1.symm)) fresh
    | cons b' tail' =>
      obtain ⟨rfl, rest⟩ := List.cons.inj same
      obtain ⟨rfl, rfl⟩ := ih (fun h => fresh (List.mem_cons_of_mem _ h))
        (fun h => fresh' (List.mem_cons_of_mem _ h)) rest
      exact ⟨rfl, rfl⟩

theorem portId_injective {m n : Int} {r s : String} (same : portId m r = portId n s) :
    m = n ∧ r = s := by
  have lists := congrArg String.toList same
  simp only [portId, String.toList_append, List.append_assoc] at lists
  obtain ⟨number, role⟩ := append_cons_inj (underscore_notMem_integerText m)
    (underscore_notMem_integerText n) lists
  exact ⟨integerText_injective (String.toList_inj.mp number), String.toList_inj.mp role⟩

/-! ## 2. The ports of a node -/

theorem Port.compatible_iff {p q : Port} :
    p.compatible q = true ↔
      p.isOutput = true ∧ q.isInput = true ∧ p.node ≠ q.node ∧ p.kind = q.kind := by
  simp [compatible, and_assoc]

namespace Kind

theorem direction_of_mem_inputs {k : Kind} {spec : PortSpec} (member : spec ∈ k.inputs) :
    spec.direction = .input := by
  have all : ∀ spec ∈ k.inputs, spec.direction = .input := by cases k <;> decide
  exact all spec member

theorem direction_of_mem_outputs {k : Kind} {spec : PortSpec} (member : spec ∈ k.outputs) :
    spec.direction = .output := by
  have all : ∀ spec ∈ k.outputs, spec.direction = .output := by cases k <;> decide
  exact all spec member

/-- Both branches of a comparison are terrain inputs. -/
theorem exists_branch (taken : Bool) : ∃ spec ∈ compare.inputs,
    spec.role = (if taken then "useTrue" else "useFalse") ∧ spec.kind = .terrain := by
  cases taken <;> decide

/-- Only terrains and comparisons deliver terrain. -/
theorem terrain_or_compare {k : Kind} {spec : PortSpec} (member : spec ∈ k.outputs)
    (terrain : spec.kind = .terrain) : k = .terrainType ∨ k = .compare := by
  have others : ∀ k : Kind, k ≠ .terrainType → k ≠ .compare → ∀ spec ∈ k.outputs,
      spec.kind ≠ .terrain := by
    intro k
    cases k <;> decide
  by_contra neither
  exact others k (fun same => neither (.inl same)) (fun same => neither (.inr same)) spec member
    terrain

/-- No role of a kind is used twice. -/
theorem roles_nodup (k : Kind) : ((k.inputs ++ k.outputs).map (·.role)).Nodup := by
  cases k <;> decide

end Kind

namespace Node

theorem kind_of_compare {n : Node} {test : Test} (params : n.params = .compare test) :
    n.kind = .compare :=
  congrArg Params.kind params

/-- A comparison compares the numbers on two of its inputs. -/
theorem compared_mem_inputs {n : Node} (compares : n.kind = .compare) :
    Kind.number "in1" "A" ∈ n.kind.inputs ∧ Kind.number "in2" "B" ∈ n.kind.inputs :=
  compares ▸ ⟨.head _, .tail _ (.head _)⟩

theorem mem_ports {n : Node} {p : Port} : p ∈ n.ports ↔ p ∈ n.inputs ∨ p ∈ n.outputs :=
  List.mem_append

theorem ports_eq (n : Node) : n.ports = (n.kind.inputs ++ n.kind.outputs).map (·.bind n.id) := by
  rw [List.map_append]
  rfl

theorem node_of_mem_ports {n : Node} {p : Port} (member : p ∈ n.ports) : p.node = n.id := by
  rw [ports_eq] at member
  obtain ⟨spec, _, rfl⟩ := List.mem_map.mp member
  rfl

theorem id_of_mem_ports {n : Node} {p : Port} (member : p ∈ n.ports) :
    p.id = portId n.id p.role := by
  rw [ports_eq] at member
  obtain ⟨spec, _, rfl⟩ := List.mem_map.mp member
  rfl

theorem isInput_of_mem_inputs {n : Node} {p : Port} (member : p ∈ n.inputs) :
    p.direction = .input := by
  obtain ⟨spec, listed, rfl⟩ := List.mem_map.mp member
  exact Kind.direction_of_mem_inputs listed

theorem isOutput_of_mem_outputs {n : Node} {p : Port} (member : p ∈ n.outputs) :
    p.direction = .output := by
  obtain ⟨spec, listed, rfl⟩ := List.mem_map.mp member
  exact Kind.direction_of_mem_outputs listed

theorem mem_inputs_iff {n : Node} {p : Port} (member : p ∈ n.ports) :
    p ∈ n.inputs ↔ p.direction = .input := by
  refine ⟨isInput_of_mem_inputs, fun input => ?_⟩
  rcases mem_ports.mp member with inside | outside
  · exact inside
  · rw [isOutput_of_mem_outputs outside] at input
    exact absurd input (by decide)

theorem mem_outputs_iff {n : Node} {p : Port} (member : p ∈ n.ports) :
    p ∈ n.outputs ↔ p.direction = .output := by
  refine ⟨isOutput_of_mem_outputs, fun output => ?_⟩
  rcases mem_ports.mp member with inside | outside
  · rw [isInput_of_mem_inputs inside] at output
    exact absurd output (by decide)
  · exact outside

/-- A node that delivers terrain is a terrain or a comparison. -/
theorem terrain_or_compare {n : Node} {p : Port} (member : p ∈ n.outputs)
    (terrain : p.kind = .terrain) :
    (∃ t, n.params = .terrainType t) ∨ ∃ test, n.params = .compare test := by
  obtain ⟨spec, listed, rfl⟩ := List.mem_map.mp member
  have kinds := Kind.terrain_or_compare listed terrain
  unfold kind at kinds
  cases params : n.params with
  | terrainType t => exact .inl ⟨t, rfl⟩
  | compare test => exact .inr ⟨test, rfl⟩
  | _ =>
    rw [params] at kinds
    rcases kinds with same | same <;> cases same

/-- The ports of one node are known by their roles. -/
theorem port_eq_of_role {n : Node} {p q : Port} (mp : p ∈ n.ports) (mq : q ∈ n.ports)
    (role : p.role = q.role) : p = q := by
  rw [ports_eq] at mp mq
  obtain ⟨s, ms, rfl⟩ := List.mem_map.mp mp
  obtain ⟨t, mt, rfl⟩ := List.mem_map.mp mq
  rw [List.inj_on_of_nodup_map n.kind.roles_nodup ms mt role]

theorem port_ids_nodup (n : Node) : (n.ports.map (·.id)).Nodup := by
  have roles := n.kind.roles_nodup
  rw [ports_eq, List.map_map]
  refine List.Nodup.map_on ?_ (List.Nodup.of_map _ roles)
  intro s ms t mt same
  exact List.inj_on_of_nodup_map roles ms mt (portId_injective same).2

end Node

/-! ## 3. The ports of nodes -/

/-- The output ports of nodes. -/
def outlets (nodes : List Node) : List Port :=
  nodes.flatMap (·.outputs)

/-- The input ports of nodes. -/
def inlets (nodes : List Node) : List Port :=
  nodes.flatMap (·.inputs)

theorem mem_outlets {nodes : List Node} {p : Port} :
    p ∈ outlets nodes ↔ ∃ n ∈ nodes, p ∈ n.outputs :=
  List.mem_flatMap

theorem mem_inlets {nodes : List Node} {p : Port} :
    p ∈ inlets nodes ↔ ∃ n ∈ nodes, p ∈ n.inputs :=
  List.mem_flatMap

section Distinct

variable {nodes : List Node} (distinct : (nodes.map (·.id)).Nodup)

include distinct

theorem node_eq_of_id {m n : Node} (mm : m ∈ nodes) (mn : n ∈ nodes) (same : m.id = n.id) :
    m = n :=
  List.inj_on_of_nodup_map distinct mm mn same

/-- A port of nodes with different ids is known by its id, and so is its owner. -/
theorem port_unique {m n : Node} {p q : Port} (mm : m ∈ nodes) (mp : p ∈ m.ports)
    (mn : n ∈ nodes) (mq : q ∈ n.ports) (same : p.id = q.id) : m = n ∧ p = q := by
  rw [Node.id_of_mem_ports mp, Node.id_of_mem_ports mq] at same
  obtain ⟨number, role⟩ := portId_injective same
  have owner := node_eq_of_id distinct mm mn number
  subst owner
  exact ⟨rfl, Node.port_eq_of_role mp mq role⟩

theorem ports_nodup : ((nodes.flatMap (·.ports)).map (·.id)).Nodup := by
  induction nodes with
  | nil => exact List.nodup_nil
  | cons n rest ih =>
    rw [List.flatMap_cons, List.map_append, List.nodup_append]
    have tail := (List.nodup_cons.mp distinct).2
    refine ⟨n.port_ids_nodup, ih tail, ?_⟩
    intro a ma b mb same
    obtain ⟨p, mp, rfl⟩ := List.mem_map.mp ma
    obtain ⟨q, mq, rfl⟩ := List.mem_map.mp mb
    obtain ⟨m, mm, mq⟩ := List.mem_flatMap.mp mq
    -- a port id that comes twice would make the first node come twice
    have later : m ∈ n :: rest := List.mem_cons_of_mem _ mm
    have owners := (port_unique distinct List.mem_cons_self mp later mq same).1
    exact (List.nodup_cons.mp distinct).1 (owners ▸ List.mem_map_of_mem mm)

end Distinct

/-! ## 4. Look-ups -/

/-- A search finds the only member that satisfies its condition. -/
theorem find?_of_unique {α : Type} {l : List α} {holds : α → Bool} {a : α} (member : a ∈ l)
    (found : holds a = true) (unique : ∀ b ∈ l, holds b = true → b = a) :
    l.find? holds = some a := by
  cases hit : l.find? holds with
  | none => exact absurd found (List.find?_eq_none.mp hit a member)
  | some b => rw [unique b (List.mem_of_find?_eq_some hit) (List.find?_some hit)]

/-- An input of a node is found by its role. -/
theorem Node.input?_of_mem {n : Node} {q : Port} (port : q ∈ n.inputs) : n.input? q.role = some q :=
  find?_of_unique port (by simp) fun _ other same =>
    port_eq_of_role (mem_ports.mpr (.inl other)) (mem_ports.mpr (.inl port)) (by simpa using same)

/-- The ports of nodes with their owners. -/
def entries (nodes : List Node) : List (Node × Port) :=
  nodes.flatMap fun n => n.ports.map fun p => (n, p)

theorem mem_entries {nodes : List Node} {n : Node} {p : Port} :
    (n, p) ∈ entries nodes ↔ n ∈ nodes ∧ p ∈ n.ports := by
  simp only [entries, List.mem_flatMap, List.mem_map, Prod.mk.injEq]
  constructor
  · rintro ⟨_, member, _, port, rfl, rfl⟩
    exact ⟨member, port⟩
  · rintro ⟨member, port⟩
    exact ⟨n, member, p, port, rfl, rfl⟩

theorem find_entry {nodes : List Node} (distinct : (nodes.map (·.id)).Nodup) {id : String}
    {n : Node} {p : Port} :
    (entries nodes).find? (fun entry => entry.2.id == id) = some (n, p) ↔
      n ∈ nodes ∧ p ∈ n.ports ∧ p.id = id := by
  constructor
  · intro found
    obtain ⟨member, port⟩ := mem_entries.mp (List.mem_of_find?_eq_some found)
    exact ⟨member, port, by simpa using List.find?_some found⟩
  · rintro ⟨member, port, rfl⟩
    refine find?_of_unique (mem_entries.mpr ⟨member, port⟩) (by simp) ?_
    rintro ⟨m, q⟩ listed same
    obtain ⟨other, otherPort⟩ := mem_entries.mp listed
    obtain ⟨rfl, rfl⟩ := port_unique distinct other otherPort member port (by simpa using same)
    rfl

end Landform
