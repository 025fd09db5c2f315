import Landform.Proofs.Graph.States

/-!
# Versions

A mutation that fails, by a refusal or by an error, leaves everything as it was but the random
numbers; one that succeeds raises the version by one. So the version counts the changes of a graph,
and two moments of a run with the same version show the same graph.

1. `Sound.apply_cases`: what a mutation does to a graph and to its version.
2. `Reachable.run_cases`: what a run does.
3. `Reachable.atomic`: both, for every reachable graph.
-/

namespace Landform

/-! ## Definitions -/

/-- Whether an answer tells that an edit was done. -/
def reportsDone : Except Error Outcome → Bool
  | .ok outcome => outcome.isDone
  | .error _ => false

/-- Whether a mutation of a graph succeeds: it answers, and does not answer with a refusal. -/
def Mutation.succeeds (g : Graph) : Mutation → Bool
  | add kind x y => (g.run (Edit.add kind x y)).2.isOk
  | remove id => reportsDone (g.run (Edit.remove id)).2
  | connect source target => reportsDone (g.run (Edit.connect source target)).2
  | disconnect source target => reportsDone (g.run (Edit.disconnect source target)).2
  | update id updates => reportsDone (g.run (Edit.update id updates)).2
  | clear => (g.run Edit.clear).2.isOk

namespace Graph

/-- A graph after the first mutations of a run. -/
def moment (g : Graph) (run : List Mutation) (k : Nat) : Graph :=
  (run.take k).foldl Mutation.apply g

variable {g : Graph}

/-! ## 1. One mutation -/

theorem reportsDone_eq_false {answer : Except Error Outcome}
    (undone : ∀ what, answer ≠ .ok (.done what)) : reportsDone answer = false := by
  match answer with
  | .ok (.done what) => exact absurd rfl (undone what)
  | .ok (.refused _) => rfl
  | .error _ => rfl

/-- A mutation fails and touches the random numbers at most, or succeeds in the next version. -/
theorem Sound.apply_cases (sound : g.Sound) (m : Mutation) :
    m.succeeds g = false ∧ (∃ random, m.apply g = { g with random }) ∨
    m.succeeds g = true ∧ (m.apply g).version = g.version + 1 := by
  cases m with
  | add kind x y =>
    rw [Mutation.succeeds, Mutation.apply]
    rcases run_add sound.toWellFormed kind x y with
      ⟨random, cause, done⟩ | ⟨random, k, seed, n, _, _, _, done⟩ <;> rw [done]
    · exact .inl ⟨rfl, random, rfl⟩
    · exact .inr ⟨rfl, rfl⟩
  | remove id =>
    rw [Mutation.succeeds, Mutation.apply]
    rcases run_remove sound id with ⟨why, _, done⟩ | ⟨_, done⟩ <;> rw [done]
    · exact .inl ⟨rfl, g.random, rfl⟩
    · exact .inr ⟨rfl, rfl⟩
  | connect source target =>
    rw [Mutation.succeeds, Mutation.apply]
    rcases run_connect sound source target with ⟨why, _, done⟩ | ⟨_, _, what, done⟩ <;> rw [done]
    · exact .inl ⟨rfl, g.random, rfl⟩
    · exact .inr ⟨rfl, rfl⟩
  | disconnect source target =>
    rw [Mutation.succeeds, Mutation.apply]
    rcases run_disconnect sound source target with ⟨why, done⟩ | ⟨_, done⟩ <;> rw [done]
    · exact .inl ⟨rfl, g.random, rfl⟩
    · exact .inr ⟨rfl, rfl⟩
  | update id updates =>
    rw [Mutation.succeeds, Mutation.apply]
    rcases run_update sound id updates with ⟨answer, undone, done⟩ | ⟨n, n', _, _, _, done⟩ <;>
      rw [done]
    · exact .inl ⟨reportsDone_eq_false undone, g.random, rfl⟩
    · exact .inr ⟨rfl, rfl⟩
  | clear =>
    rw [Mutation.succeeds, Mutation.apply, run_clear]
    exact .inr ⟨rfl, rfl⟩

/-! ## 2. Runs -/

theorem Reachable.run (reachable : g.Reachable) (run : List Mutation) :
    (run.foldl Mutation.apply g).Reachable := by
  induction run generalizing g with
  | nil => exact reachable
  | cons m rest ih => exact ih (.mutate m reachable)

/-- A run in which no mutation succeeds touches the random numbers at most; any other run ends in a
later version. -/
theorem Reachable.run_cases (reachable : g.Reachable) (run : List Mutation) :
    (∃ random, run.foldl Mutation.apply g = { g with random }) ∨
    g.version < (run.foldl Mutation.apply g).version := by
  induction run generalizing g with
  | nil => exact .inl ⟨g.random, rfl⟩
  | cons m rest ih =>
    have later := ih (.mutate m reachable)
    rw [List.foldl_cons]
    -- a failed mutation leaves the version alone, so that the rest of the run decides
    rcases reachable.sound.apply_cases m with ⟨_, random, same⟩ | ⟨_, next⟩
    · rw [same] at later ⊢
      exact later
    · refine .inr ?_
      rcases later with ⟨random, same⟩ | further
      · rw [same]
        exact next ▸ Nat.lt_succ_self _
      · exact Nat.lt_of_lt_of_le (next ▸ Nat.lt_succ_self _) further.le

/-- The data of a graph show neither its version nor its random numbers. -/
theorem toValue_random (random : Twister) : ({ g with random } : Graph).toValue = g.toValue :=
  rfl

theorem Reachable.toValue_eq_of_version_eq (reachable : g.Reachable) {run : List Mutation}
    (same : (run.foldl Mutation.apply g).version = g.version) :
    (run.foldl Mutation.apply g).toValue = g.toValue := by
  rcases reachable.run_cases run with ⟨random, unchanged⟩ | later
  · rw [unchanged, toValue_random]
  · exact absurd same (Nat.ne_of_gt later)

/-- A later point of a fold comes from an earlier one by the steps between them. -/
theorem foldl_take_of_le {α : Type} (step : Graph → α → Graph) (steps : List α) {i j : Nat}
    (le : i ≤ j) : (steps.take j).foldl step g =
      ((steps.take j).drop i).foldl step ((steps.take i).foldl step g) := by
  have front : steps.take i = (steps.take j).take i := by rw [List.take_take, Nat.min_eq_left le]
  rw [front, ← List.foldl_append, List.take_append_drop]

/-- A later moment of a run comes from an earlier one by the mutations between them. -/
theorem moment_eq_of_le {run : List Mutation} {i j : Nat} (le : i ≤ j) :
    g.moment run j = ((run.take j).drop i).foldl Mutation.apply (g.moment run i) :=
  foldl_take_of_le Mutation.apply run le

/-! ## 3. Atomic mutations -/

/-- Mutations with any arguments are atomic, and the version of a graph tells its state: a failed
mutation leaves all but the random numbers as it was, a successful one raises the version by one,
and moments of one run with the same version show the same data. -/
theorem Reachable.atomic (reachable : g.Reachable) :
    (∀ m : Mutation,
      (m.succeeds g = false → ∃ random, m.apply g = { g with random }) ∧
      (m.succeeds g = true → (m.apply g).version = g.version + 1)) ∧
    ∀ (run : List Mutation) (i j : Nat), (g.moment run i).version = (g.moment run j).version →
      (g.moment run i).toValue = (g.moment run j).toValue := by
  refine ⟨fun m => ?_, fun run i j same => ?_⟩
  · rcases reachable.sound.apply_cases m with ⟨failed, unchanged⟩ | ⟨done, next⟩
    · exact ⟨fun _ => unchanged, fun done => absurd (failed.symm.trans done) (by decide)⟩
    · exact ⟨fun failed => absurd (failed.symm.trans done) (by decide), fun _ => next⟩
  · -- the later of two moments is reached from the earlier one, whichever that is
    rcases Nat.le_total i j with le | le
    · rw [moment_eq_of_le le] at same ⊢
      exact ((reachable.run _).toValue_eq_of_version_eq same.symm).symm
    · rw [moment_eq_of_le le] at same ⊢
      exact (reachable.run _).toValue_eq_of_version_eq same

/-- Two mutations that fail, and one that succeeds. -/
theorem connectedPair_atomic :
    (Mutation.connect "2_out" "1_in").succeeds connectedPair = false ∧
    (Mutation.add "erosion" (.int 0) (.int 0)).succeeds connectedPair = false ∧
    (Mutation.remove 2).succeeds connectedPair = true ∧
    (∀ m : Mutation,
      (m.succeeds connectedPair = false → ∃ random, m.apply connectedPair =
        { connectedPair with random }) ∧
      (m.succeeds connectedPair = true →
        (m.apply connectedPair).version = connectedPair.version + 1)) ∧
    ∀ (run : List Mutation) (i j : Nat),
      (connectedPair.moment run i).version = (connectedPair.moment run j).version →
      (connectedPair.moment run i).toValue = (connectedPair.moment run j).toValue :=
  ⟨by decide +kernel, by decide +kernel, by decide +kernel, connectedPair_built.reachable.atomic⟩

end Graph

end Landform
