import Landform.Counting
import Landform.Table

/-!
# Content locals

Generated code keeps the content of each terrain name in a local slot. A local is claimed for a
name: if it already stands for another name, a suffix is appended until it is free or stands for
the name itself. Every attempt is longer than the one before, and only finitely many locals have
been declared, so that a claim always ends.
-/

namespace Landform.Script

/-- The locals declared so far, each with the name it stands for. -/
abbrev Locals := Table String

namespace Locals

/-- The number of declared locals at least as long as a text. -/
def longEnough (declared : Locals) (length : Nat) : Nat :=
  declared.countP fun entry => length ≤ entry.1.length

/-- A longer text has fewer declared locals at least as long when a declared one is as long as the
shorter text. -/
theorem longEnough_lt {declared : Locals} {entry : String × String} {length : Nat}
    (member : entry ∈ declared) (longer : entry.1.length < length) :
    longEnough declared length < longEnough declared entry.1.length := by
  apply countP_lt_countP member
  · intro other h
    simp only [decide_eq_true_eq] at h ⊢
    omega
  · simp
  · simp only [decide_eq_false_iff_not]
    omega

/-- The first of `slot`, `slot` with one suffix, with two suffixes and so on that is not
declared for another name. An empty suffix is never appended. -/
def choose (declared : Locals) (slot name suffix : String) : String :=
  match _found : declared.find? (·.1 == slot) with
  | none => slot
  | some entry =>
    if entry.2 == name || suffix.length = 0 then slot
    else choose declared (slot ++ suffix) name suffix
termination_by longEnough declared slot.length
decreasing_by
  have named : entry.1 = slot := by simpa using List.find?_some _found
  rename_i notFree
  simp only [Bool.or_eq_true, decide_eq_true_eq, not_or] at notFree
  rw [← named]
  apply longEnough_lt (List.mem_of_find?_eq_some _found)
  rw [String.length_append]
  omega

/-- The local for a name, and the declarations that include it; `isNew` tells whether it has yet to
be declared. -/
structure Claim where
  slot : String
  declared : Locals
  isNew : Bool

/-- Claims a local for a name. -/
def claim (declared : Locals) (slot name suffix : String) : Claim :=
  let slot := choose declared slot name suffix
  if (declared.get? slot).isSome then ⟨slot, declared, false⟩
  else ⟨slot, declared.put slot name, true⟩

end Locals

end Landform.Script
