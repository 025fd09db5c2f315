import Landform.Proofs.Graph.Ports
import Landform.Proofs.Lua.Meaning
import Landform.Proofs.Lua.Rendered
import Landform.Proofs.Table
import Landform.Script.Compile

/-!
# The locals of contents

A claim gives a local that is declared for exactly the wanted name, and leaves every other
declaration as it is. Hence every terrain node of a graph with distinct ids has a local that stands
for its name in the script, and all locals keep the balance of the lines that use them.

1. `Locals.get?_claim`, `Locals.Extends`: what a claim declares.
2. `assignment_knows`: the locals of terrain nodes.
3. `assignment_all`: what all locals have in common.
4. `local_contentsOf`, `isContentLocal_contentsOf`: locals keep the balance, and are words.
-/

namespace Landform

open Lua Decimal

namespace Script

/-! ## 1. Claims -/

namespace Locals

/-- The chosen local stands for no other name. -/
theorem choose_free (declared : Locals) (slot name suffix : String) (some : suffix.length ≠ 0) :
    ∀ other, declared.get? (choose declared slot name suffix) = .some other → other = name := by
  fun_induction choose declared slot name suffix with
  | case1 slot absent =>
    intro other found
    rw [Table.get?, absent] at found
    cases found
  | case2 slot entry listed free =>
    intro other found
    rw [Table.get?, listed] at found
    cases found
    simpa [some] using free
  | case3 slot entry listed taken ih => exact ih

/-- A claimed local stands for the name. -/
theorem get?_claim (declared : Locals) (slot name suffix : String) (some : suffix.length ≠ 0) :
    (claim declared slot name suffix).declared.get? (claim declared slot name suffix).slot =
      .some name := by
  rw [claim]
  split
  · next known =>
    obtain ⟨other, found⟩ := Option.isSome_iff_exists.mp known
    rw [found, choose_free declared slot name suffix some other found]
  · exact Table.get?_put _ _ _

/-- What stays true of the declared locals while more are claimed. -/
structure Extends (later earlier : Locals) : Prop where
  kept : ∀ slot name, earlier.get? slot = some name → later.get? slot = some name
  functional : Table.Functional earlier → Table.Functional later

namespace Extends

variable {a b c : Locals}

theorem refl (a : Locals) : Extends a a :=
  ⟨fun _ _ => id, id⟩

theorem trans (first : Extends b a) (second : Extends c b) : Extends c a :=
  ⟨fun slot name found => second.kept slot name (first.kept slot name found),
    second.functional ∘ first.functional⟩

end Extends

theorem extends_claim (declared : Locals) (slot name suffix : String) :
    (claim declared slot name suffix).declared.Extends declared := by
  rw [claim]
  split
  · exact .refl _
  · next unknown =>
    refine ⟨fun other content found => ?_, fun functional => functional.put _ _⟩
    have different : other ≠ choose declared slot name suffix := by
      rintro rfl
      exact unknown (by rw [found]; rfl)
    dsimp only
    rw [Table.get?_put_of_ne _ _ different, found]

end Locals

/-! ## 2. The locals of terrain nodes -/

/-- The local of a node stands for a name. -/
def Assignment.Knows (a : Assignment) (id : Int) (name : String) : Prop :=
  ∃ entry, a.slots.find? (·.1 == id) = some entry ∧ a.declared.get? entry.2 = some name

/-- An assignment after more nodes have got their locals. -/
structure Assignment.Extends (later earlier : Assignment) : Prop where
  declared : later.declared.Extends earlier.declared
  slots : ∀ id entry, earlier.slots.find? (·.1 == id) = some entry →
    later.slots.find? (·.1 == id) = some entry

namespace Assignment

theorem Knows.mono {earlier later : Assignment} {id : Int} {name : String}
    (known : earlier.Knows id name) (extends' : later.Extends earlier) : later.Knows id name := by
  obtain ⟨entry, found, content⟩ := known
  exact ⟨entry, extends'.slots id entry found, extends'.declared.kept _ _ content⟩

theorem extends_addNode (a : Assignment) (n : Node) : (a.addNode n).Extends a := by
  rw [addNode]
  split
  · refine ⟨Locals.extends_claim _ _ _ _, fun id entry found => ?_⟩
    dsimp only
    rw [List.find?_append, found, Option.some_or]
  · exact ⟨.refl _, fun _ _ => id⟩

theorem extends_foldl (a : Assignment) (nodes : List Node) :
    (nodes.foldl addNode a).Extends a := by
  induction nodes generalizing a with
  | nil => exact ⟨.refl _, fun _ _ => id⟩
  | cons n rest ih =>
    obtain ⟨declared, slots⟩ := extends_addNode a n
    obtain ⟨declared', slots'⟩ := ih (a.addNode n)
    exact ⟨declared.trans declared', fun id entry found => slots' id entry (slots id entry found)⟩

/-- A node that has no local yet gets one that stands for its name. -/
theorem knows_addNode (a : Assignment) {n : Node} {t : Terrain}
    (params : n.params = .terrainType t) (fresh : a.slots.find? (·.1 == n.id) = none) :
    (a.addNode n).Knows n.id t.name := by
  rw [addNode, params]
  dsimp only
  refine ⟨(n.id, _), ?_, Locals.get?_claim _ _ _ _ (by simp)⟩
  rw [List.find?_append, fresh]
  simp

/-- Only the listed nodes get locals. -/
theorem mem_slots_foldl {a : Assignment} {nodes : List Node} {entry : Int × String}
    (listed : entry ∈ (nodes.foldl addNode a).slots) :
    entry ∈ a.slots ∨ ∃ n ∈ nodes, n.id = entry.1 := by
  induction nodes generalizing a with
  | nil => exact .inl listed
  | cons n rest ih =>
    rcases ih listed with early | ⟨m, member, id⟩
    · rw [addNode] at early
      split at early
      · rcases List.mem_append.mp early with early | single
        · exact .inl early
        · rw [List.mem_singleton.mp single]
          exact .inr ⟨n, List.mem_cons_self, rfl⟩
      · exact .inl early
    · exact .inr ⟨m, List.mem_cons_of_mem _ member, id⟩

end Assignment

theorem contentsOf_eq {a : Assignment} {n : Node} {name : String} (known : a.Knows n.id name) :
    a.declared.get? (contentsOf a.slots n) = some name := by
  obtain ⟨entry, found, content⟩ := known
  rw [contentsOf, found]
  exact content

/-- A node has no local before its turn comes. -/
theorem find?_slots_foldl {before after : List Node} {n : Node}
    (distinct : ((before ++ n :: after).map (·.id)).Nodup) :
    (before.foldl Assignment.addNode ⟨builtIn, []⟩).slots.find? (·.1 == n.id) = none := by
  rw [List.map_append, List.map_cons] at distinct
  have apart : n.id ∉ before.map (·.id) := fun early =>
    (List.nodup_append.mp distinct).2.2 _ early _ List.mem_cons_self rfl
  refine List.find?_eq_none.mpr fun entry listed same => ?_
  have id : entry.1 = n.id := by simpa using same
  rcases Assignment.mem_slots_foldl listed with none | ⟨m, member, origin⟩
  · exact absurd none List.not_mem_nil
  · exact apart (List.mem_map.mpr ⟨m, member, origin.trans id⟩)

/-- Every terrain node has a local that stands for its name. -/
theorem assignment_knows {g : Graph} (distinct : (g.nodes.map (·.id)).Nodup) {n : Node}
    (member : n ∈ g.nodes) {t : Terrain} (params : n.params = .terrainType t) :
    (assignment g).Knows n.id t.name := by
  obtain ⟨before, after, split⟩ := List.append_of_mem member
  rw [split] at distinct
  -- no node before it has its id, and the nodes after it leave its local alone
  rw [assignment, split, List.foldl_append, List.foldl_cons]
  exact .mono (Assignment.knows_addNode _ params (find?_slots_foldl distinct))
    (Assignment.extends_foldl _ after)

theorem functional_assignment (g : Graph) : Table.Functional (assignment g).declared :=
  (Assignment.extends_foldl _ g.nodes).declared.functional (by unfold Table.Functional; decide)

/-! ## 3. What all locals have in common -/

section Common

variable {good : String → Prop}

/-- All declared locals have a property. -/
def Locals.All (good : String → Prop) (declared : Locals) : Prop :=
  ∀ entry ∈ declared, good entry.1

theorem Locals.All.put {declared : Locals} (all : declared.All good) {slot : String}
    (named : good slot) (name : String) : Locals.All good (Table.put declared slot name) := by
  induction declared with
  | nil => simpa [Table.put, All] using named
  | cons entry rest ih =>
    obtain ⟨key, old⟩ := entry
    obtain ⟨first, others⟩ := List.forall_mem_cons.mp all
    rw [Table.put]
    split
    · exact List.forall_mem_cons.mpr ⟨first, others⟩
    · exact List.forall_mem_cons.mpr ⟨first, ih others⟩

/-- A chosen local has a property that the suffix keeps. -/
theorem Locals.choose_good (declared : Locals) {slot : String} (base : good slot) (name : String)
    {suffix : String} (kept : ∀ slot, good slot → good (slot ++ suffix)) :
    good (declared.choose slot name suffix) := by
  fun_induction Locals.choose declared slot name suffix with
  | case1 => exact base
  | case2 => exact base
  | case3 slot _ _ _ ih => exact ih (kept slot base)

theorem Locals.All.claim {declared : Locals} (all : declared.All good) {slot : String}
    (base : good slot) (name : String) {suffix : String}
    (kept : ∀ slot, good slot → good (slot ++ suffix)) :
    (declared.claim slot name suffix).declared.All good ∧
      good (declared.claim slot name suffix).slot := by
  have chosen := declared.choose_good base name kept
  rw [Locals.claim]
  split
  · exact ⟨all, chosen⟩
  · exact ⟨all.put chosen name, chosen⟩

/-- All locals of an assignment have a property. -/
structure Assignment.All (good : String → Prop) (a : Assignment) : Prop where
  declared : a.declared.All good
  slots : ∀ entry ∈ a.slots, good entry.2

theorem Assignment.All.addNode {a : Assignment} (all : a.All good) {n : Node}
    (kept : ∀ slot, good slot → good (slot ++ ("_" ++ integerText n.id)))
    (plain : ∀ name, good (contentLocal name)) : (a.addNode n).All good := by
  rw [Assignment.addNode]
  split
  · next t _ =>
    obtain ⟨declared, slot⟩ := all.declared.claim (plain t.name) t.name kept
    refine ⟨declared, List.forall_mem_append.mpr ⟨all.slots, ?_⟩⟩
    simpa using slot
  · exact all

/-- All locals of a graph have a property of plain locals that the suffixes of its nodes keep. -/
theorem assignment_all {g : Graph} (start : ∀ entry ∈ builtIn, good entry.1)
    (kept : ∀ n ∈ g.nodes, ∀ slot, good slot → good (slot ++ ("_" ++ integerText n.id)))
    (plain : ∀ name, good (contentLocal name)) : (assignment g).All good := by
  have start : Assignment.All good ⟨builtIn, []⟩ := ⟨start, by simp⟩
  unfold assignment
  generalize (⟨builtIn, []⟩ : Assignment) = a at start
  generalize g.nodes = nodes at kept
  induction nodes generalizing a with
  | nil => exact start
  | cons n rest ih =>
    obtain ⟨first, others⟩ := List.forall_mem_cons.mp kept
    exact ih _ (start.addNode first plain) others

theorem Assignment.All.contentsOf {a : Assignment} (all : a.All good)
    (plain : ∀ name, good (contentLocal name)) (n : Node) : good (contentsOf a.slots n) := by
  rw [Script.contentsOf]
  split
  · next entry found => exact all.slots entry (List.mem_of_find?_eq_some found)
  · split
    · exact plain _
    · exact plain _

end Common

/-! ## 4. Locals in lines -/

theorem local_suffix {slot : String} (base : Local slot.toList) (n : Int) :
    Local (slot ++ ("_" ++ integerText n)).toList := by
  have text : (slot ++ ("_" ++ integerText n)).toList =
      slot.toList ++ '_' :: (integerText n).toList := by
    simp
  rw [text]
  exact base.suffix n

/-- All locals keep the balance. -/
theorem local_assignment (g : Graph) : (assignment g).All fun slot => Local slot.toList := by
  refine assignment_all (fun entry listed => ?_) (fun n _ slot base => local_suffix base n.id)
    local_contentLocal
  rcases List.mem_pair.mp listed with rfl | rfl <;>
    exact .word (by decide) (by decide) (by decide)

theorem local_contentsOf (g : Graph) (n : Node) :
    Local (contentsOf (assignment g).slots n).toList :=
  (local_assignment g).contentsOf local_contentLocal n

theorem isContentLocal_contentLocal (name : String) : IsContentLocal (contentLocal name) := by
  refine ⟨(identifier name).toList, by simp [contentLocal], List.all_eq_true.mpr fun c member => ?_⟩
  rw [identifier, String.toList_ofList] at member
  obtain ⟨d, _, rfl⟩ := List.mem_map.mp member
  split
  · assumption
  · decide

theorem isContentLocal_suffix {slot : String} (base : IsContentLocal slot) {n : Int}
    (natural : 0 ≤ n) : IsContentLocal (slot ++ ("_" ++ integerText n)) := by
  obtain ⟨rest, text, letters⟩ := base
  refine ⟨rest ++ '_' :: natDigits n.natAbs, ?_, ?_⟩
  · simp [text, toList_integerText, Int.not_lt.mpr natural]
  · rw [List.all_append, letters, List.all_cons, Bool.true_and, Bool.and_eq_true, List.all_eq_true]
    refine ⟨by decide, fun c member => ?_⟩
    simp [isIdentifierChar, isDigit_of_mem_natDigits member]

/-- The locals of nodes whose ids have no sign are words. -/
theorem isContentLocal_contentsOf {g : Graph} (natural : ∀ n ∈ g.nodes, 0 ≤ n.id) (n : Node) :
    IsContentLocal (contentsOf (assignment g).slots n) := by
  have all : (assignment g).All IsContentLocal := by
    refine assignment_all (fun entry listed => ?_)
      (fun n member slot base => isContentLocal_suffix base (natural n member))
      isContentLocal_contentLocal
    rcases List.mem_pair.mp listed with rfl | rfl <;> exact ⟨_, rfl, by decide⟩
  exact all.contentsOf isContentLocal_contentLocal n

end Script

end Landform
