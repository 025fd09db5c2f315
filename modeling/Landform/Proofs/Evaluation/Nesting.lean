import Landform.Decimal.Written
import Landform.Proofs.Evaluation.Inquiry
import Landform.Proofs.Evaluation.Plain

/-!
# How deep evaluation nests

The traced recursion notes down every call with the keys that are on the way to it, and has a budget
that falls with every nested call, so that it ends by its definition, whatever the connections are.
A budget of one more than the number of ports is never spent: a call that nests a further one puts a
port on the way that was not there, and there are no more ports than that. No graph has to be sound
for this; a cycle of connections comes back to a port that is on the way.

1. `Traced`: results with the calls they took.
2. `Traced.Gives`, `Traced.Within`: what is stated of a trace, step by step.
3. `traced_gives`, `traced_within`: tracing evaluation.
-/

namespace Landform

/-! ## 1. Traces -/

/-- What a call puts on the way while it lasts: a port, or the node of a block. -/
inductive Key where
  | port (id : String)
  | block (node : Int)
deriving Repr, DecidableEq

/-- The text that stands for a key among those on the way. -/
def Key.text : Key → String
  | port id => id
  | block node => "block:" ++ Decimal.integerText node

/-- The report of a key that is met again. -/
def Key.cycle : Key → Error
  | port id => .cycleThroughPort id
  | block node => .cycleThroughNode node

/-- A call, with the texts on the way to it, the last first. -/
structure Call where
  key : Key
  way : List String
deriving Repr, DecidableEq

/-- Why a traced recursion stops. -/
inductive Halt where
  | exhausted
  | failed (cause : Error)

/-- A result with the calls that it took, in order. -/
structure Traced (α : Type) where
  calls : List Call
  result : Except Halt α

namespace Traced

variable {α β : Type}

instance : Monad Traced where
  pure a := ⟨[], .ok a⟩
  bind t f := match t.result with
    | .ok a => ⟨t.calls ++ (f a).calls, (f a).result⟩
    | .error why => ⟨t.calls, .error why⟩

/-- Notes down a call. -/
def enter (key : Key) (way : List String) (t : Traced α) : Traced α :=
  ⟨⟨key, way⟩ :: t.calls, t.result⟩

def halt (why : Halt) : Traced α :=
  ⟨[], .error why⟩

/-- Takes over the answer of a computation without calls. -/
def ofExcept : Except Error α → Traced α
  | .ok a => pure a
  | .error cause => halt (.failed cause)

/-- Every step of a trace continues or ends it. -/
theorem bind_cases (t : Traced α) (f : α → Traced β) :
    (∃ a, t.result = .ok a ∧ t >>= f = ⟨t.calls ++ (f a).calls, (f a).result⟩) ∨
    ∃ why, t.result = .error why ∧ t >>= f = ⟨t.calls, .error why⟩ := by
  obtain ⟨calls, result⟩ := t
  cases result with
  | ok a => exact .inl ⟨a, rfl, rfl⟩
  | error why => exact .inr ⟨why, rfl, rfl⟩

/-! ## 2. Statements about traces -/

/-- A trace within its budget, with the answer of a computation without one. -/
def Gives (t : Traced α) (answer : Except Error α) : Prop :=
  t.result = answer.mapError .failed

/-- The ways of a trace hold keys of a list, each once. -/
def Within (keys : List String) (t : Traced α) : Prop :=
  ∀ call ∈ t.calls, call.way.Nodup ∧ call.way ⊆ keys

theorem Gives.pure (a : α) : Gives (pure a) (.ok a) := rfl

theorem Gives.failed (cause : Error) : Gives (α := α) (halt (.failed cause)) (.error cause) := rfl

theorem Gives.ofExcept (answer : Except Error α) : Gives (ofExcept answer) answer := by
  cases answer <;> rfl

theorem Gives.enter {key : Key} {way : List String} {t : Traced α} {answer : Except Error α}
    (gives : t.Gives answer) : (t.enter key way).Gives answer :=
  gives

theorem Gives.bind {t : Traced α} {answer : Except Error α} {f : α → Traced β}
    {rest : α → Except Error β} (first : t.Gives answer) (next : ∀ a, (f a).Gives (rest a)) :
    (t >>= f).Gives (answer >>= rest) := by
  unfold Gives at first ⊢
  rcases bind_cases t f with ⟨a, found, step⟩ | ⟨why, found, step⟩ <;> rw [found] at first <;>
    rw [step] <;> cases answer <;> cases first
  · exact next _
  · rfl

/-- An inquiry gives what it gives without a trace. -/
theorem Gives.run {input : String → Traced α} {plain : String → Except Error α}
    (each : ∀ role, (input role).Gives (plain role)) (q : Inquiry α β) :
    (q.run input).Gives (q.run plain) := by
  induction q with
  | done result => exact .pure result
  | ask role next ih => exact .bind (each role) ih

section Within

variable {keys : List String}

theorem Within.pure (a : α) : Within keys (pure a) := fun _ none => absurd none List.not_mem_nil

theorem Within.halt (why : Halt) : Within keys (halt why : Traced α) :=
  fun _ none => absurd none List.not_mem_nil

theorem Within.ofExcept (answer : Except Error α) : Within keys (ofExcept answer) := by
  cases answer with
  | ok a => exact .pure a
  | error cause => exact .halt _

theorem Within.enter {key : Key} {way : List String} {t : Traced α} (nodup : way.Nodup)
    (known : way ⊆ keys) (within : t.Within keys) : (t.enter key way).Within keys := by
  rintro call (_ | ⟨_, listed⟩)
  · exact ⟨nodup, known⟩
  · exact within call listed

theorem Within.bind {t : Traced α} {f : α → Traced β} (first : t.Within keys)
    (next : ∀ a, (f a).Within keys) : (t >>= f).Within keys := by
  rcases bind_cases t f with ⟨a, _, step⟩ | ⟨why, _, step⟩ <;> rw [step]
  · intro call listed
    rcases List.mem_append.mp listed with before | after
    · exact first call before
    · exact next a call after
  · exact first

theorem Within.run {input : String → Traced α} (each : ∀ role, (input role).Within keys)
    (q : Inquiry α β) : (q.run input).Within keys :=
  Inquiry.holds_run (P := Within keys) Within.pure Within.bind each q

/-- A way within a list of keys is no longer than the list. -/
theorem Within.length_le {t : Traced α} (within : t.Within keys) :
    ∀ call ∈ t.calls, call.way.Nodup ∧ call.way ⊆ keys ∧ call.way.length ≤ keys.length := by
  intro call listed
  obtain ⟨nodup, known⟩ := within call listed
  exact ⟨nodup, known, (List.subperm_of_subset nodup known).length_le⟩

end Within

end Traced

/-! ## 3. Evaluation -/

namespace Wiring

/-- The ids of the ports. -/
def portIds (w : Wiring) : List String :=
  w.ports.map (·.2.id)

theorem mem_portIds_of_find? {w : Wiring} {id : String} {entry : Node × Port}
    (found : w.find? id = some entry) : id ∈ w.portIds := by
  have named : entry.2.id = id := by simpa using List.find?_some found
  exact named ▸ List.mem_map_of_mem (List.mem_of_find?_eq_some found)

/-- The signal of a port with the calls that it takes. The budget falls with every nested call, and
nothing else keeps the recursion from going on. -/
def tracedSignal (w : Wiring) (limit : DepthLimit) (point : Point) :
    (budget : Nat) → (visiting : List String) → (depth : Nat) → (id : String) → Traced Signal
  | 0, _, _, _ => .halt .exhausted
  | budget + 1, visiting, depth, id => .enter (.port id) visiting <|
    match w.find? id with
    | none => pure (.number 0)
    | some (node, port) =>
      if limit.isExceeded depth then pure port.kind.default
      else if visiting.contains id then pure port.kind.default
      else if port.isOutput then do
        let inquiry := node.params.inquiry port.role point (w.isConnected node)
        let answer ← inquiry.run fun role =>
          tracedSignal w limit point budget (id :: visiting) depth (portId node.id role)
        return answer.getD port.kind.default
      else match w.incoming? id with
        | none => pure port.kind.default
        | some c => tracedSignal w limit point budget (id :: visiting) (depth + 1) c.source

end Wiring

namespace Graph

variable (g : Graph) (limit : DepthLimit) (point : Point)

/-- A budget of more than the number of ports off the way is not spent, and the traced recursion
gives the signal that the guarded one gives. -/
theorem traced_gives (budget : Nat) (visiting : List String) (depth : Nat) (id : String)
    (room : g.wiring.unvisited visiting < budget) :
    (g.wiring.tracedSignal limit point budget visiting depth id).Gives
      (.ok (g.wiring.portSignal limit point visiting depth id)) := by
  induction budget generalizing visiting depth id with
  | zero => exact absurd room (Nat.not_lt_zero _)
  | succ budget ih =>
    unfold Wiring.tracedSignal
    refine .enter ?_
    cases found : g.wiring.find? id with
    | none =>
      rw [guarded_unknown limit point found]
      exact .pure _
    | some entry =>
      obtain ⟨n, p⟩ := entry
      rw [guarded_eq limit point found]
      dsimp only
      split
      · exact .pure _
      · split
        · exact .pure _
        · -- the port goes on the way, which leaves fewer ports off it
          next fresh =>
          have less := Wiring.unvisited_cons_lt found (by simpa using fresh)
          have lower : g.wiring.unvisited (id :: visiting) < budget := by omega
          split
          · have asked := Traced.Gives.run
              (fun role => ih (id :: visiting) depth (portId n.id role) lower)
              (n.params.inquiry p.role point (g.wiring.isConnected n))
            rw [Inquiry.run_eq_ok _ fun _ _ => rfl] at asked
            rw [Params.rule_eq_answer]
            exact .bind asked fun answer => .pure _
          · cases g.wiring.incoming? id with
            | none => exact .pure _
            | some c => exact ih _ _ _ lower

/-- The ways of the traced recursion hold ports of the graph, each once, within any budget. -/
theorem traced_within (budget : Nat) (visiting : List String) (depth : Nat) (id : String)
    (nodup : visiting.Nodup) (known : visiting ⊆ g.wiring.portIds) :
    (g.wiring.tracedSignal limit point budget visiting depth id).Within g.wiring.portIds := by
  induction budget generalizing visiting depth id with
  | zero => exact .halt _
  | succ budget ih =>
    unfold Wiring.tracedSignal
    refine .enter nodup known ?_
    cases found : g.wiring.find? id with
    | none => exact .pure _
    | some entry =>
      dsimp only
      split
      · exact .pure _
      · split
        · exact .pure _
        · -- a call nests further ones only where its port was not on the way
          next fresh =>
          have nodup' : (id :: visiting).Nodup :=
            List.nodup_cons.mpr ⟨by simpa using fresh, nodup⟩
          have known' : id :: visiting ⊆ g.wiring.portIds :=
            List.cons_subset.mpr ⟨Wiring.mem_portIds_of_find? found, known⟩
          split
          · exact .bind (.run (fun role => ih _ _ _ nodup' known') _) fun answer => .pure _
          · split
            · exact .pure _
            · exact ih _ _ _ nodup' known'

end Graph

end Landform
