/-!
# Counting

A stronger condition that some member of a list fails holds of fewer members. The measures of the
recursions that keep a list of what they have visited come down to this.
-/

namespace Landform

/-- A stronger condition that some member of a list fails holds of fewer members. -/
theorem countP_lt_countP {α : Type} {p q : α → Bool} {l : List α} {a : α} (member : a ∈ l)
    (weaker : ∀ x, q x = true → p x = true) (holds : p a = true) (fails : q a = false) :
    l.countP q < l.countP p := by
  induction l with
  | nil => simp at member
  | cons head tail ih =>
    have mono : tail.countP q ≤ tail.countP p := List.countP_mono_left fun x _ h => weaker x h
    rw [List.countP_cons, List.countP_cons]
    rcases List.mem_cons.mp member with rfl | inTail
    · simp [holds, fails]
      omega
    · have less := ih inTail
      cases hq : q head with
      | false => simp; omega
      | true => simp [weaker head hq]; omega

/-- Visiting a key that some member has leaves fewer members whose keys are not visited. -/
theorem countP_unvisited_lt {α κ : Type} [BEq κ] [LawfulBEq κ] {key : α → κ} {l : List α} {a : α}
    {k : κ} {visited : List κ} (found : l.find? (fun x => key x == k) = some a)
    (fresh : visited.contains k = false) :
    (l.countP fun x => !(k :: visited).contains (key x)) <
      l.countP fun x => !visited.contains (key x) := by
  have named : key a = k := by simpa using List.find?_some found
  apply countP_lt_countP (List.mem_of_find?_eq_some found)
  · intro other h
    simp only [List.contains_cons, Bool.not_or, Bool.and_eq_true] at h
    exact h.2
  · rw [named, fresh]
    rfl
  · simp [named]

end Landform
