import Landform.Files
import Landform.Proofs.Table
import Mathlib

/-!
# Paths and files

Walking a path leaves steps that walking again leaves as they are: none of them is empty or a single
dot, and two dots come only before all others. Since no step has a slash in it, writing the steps
with slashes between them and splitting the text again gives them back. So the normal form of a path
is its own normal form, and files that are looked up by it are told apart by it.

1. `Text.partsAt_intercalate`: splitting what was put together.
2. `Path.Settled`, `Path.settled_walk`, `Path.walk_settled`: what walking leaves.
3. `Path.normal_normal`: the normal form of a normal form.
4. `Files.read_write`: reading what was written.
-/

namespace Landform

/-! ## 1. Parts of a text -/

namespace Text

variable {separator : Char}

theorem partsAt_of_notMem {text : List Char} (absent : separator ∉ text) :
    partsAt separator text = [text] := by
  induction text with
  | nil => rfl
  | cons c rest ih =>
    obtain ⟨other, later⟩ := List.ne_and_not_mem_of_not_mem_cons absent
    rw [partsAt, if_neg (by simpa using other.symm), ih later]

theorem partsAt_append {part : List Char} (absent : separator ∉ part) (text : List Char) :
    partsAt separator (part ++ separator :: text) = part :: partsAt separator text := by
  induction part with
  | nil => exact if_pos (beq_self_eq_true separator)
  | cons c rest ih =>
    obtain ⟨other, later⟩ := List.ne_and_not_mem_of_not_mem_cons absent
    rw [List.cons_append, partsAt, if_neg (by simpa using other.symm), ih later]

theorem notMem_of_mem_partsAt (text : List Char) :
    ∀ part ∈ partsAt separator text, separator ∉ part := by
  induction text with
  | nil => simp [partsAt]
  | cons c rest ih =>
    rw [partsAt]
    by_cases here : c = separator
    · rw [if_pos (by simpa using here), List.forall_mem_cons]
      exact ⟨List.not_mem_nil, ih⟩
    · rw [if_neg (by simpa using here)]
      cases split : partsAt separator rest with
      | nil => simpa using Ne.symm here
      | cons first others =>
        rw [split, List.forall_mem_cons] at ih
        exact List.forall_mem_cons.mpr
          ⟨List.not_mem_cons_of_ne_of_not_mem (Ne.symm here) ih.1, ih.2⟩

/-- Splitting gives back the parts that were put together. -/
theorem partsAt_intercalate {parts : List (List Char)} (some : parts ≠ [])
    (absent : ∀ part ∈ parts, separator ∉ part) :
    partsAt separator ([separator].intercalate parts) = parts := by
  induction parts with
  | nil => exact absurd rfl some
  | cons part rest ih =>
    obtain ⟨here, later⟩ := List.forall_mem_cons.mp absent
    cases rest with
    | nil => rw [List.intercalate_singleton, partsAt_of_notMem here]
    | cons next rest =>
      rw [List.intercalate_cons_cons, List.append_assoc, List.singleton_append,
        partsAt_append here, ih (List.cons_ne_nil _ _) later]

theorem notMem_of_mem_split {text step : String} (listed : step ∈ split separator text) :
    separator ∉ step.toList := by
  obtain ⟨part, found, rfl⟩ := List.mem_map.mp listed
  rw [String.toList_ofList]
  exact notMem_of_mem_partsAt _ part found

end Text

namespace Path

open Text

/-! ## 2. What walking leaves -/

/-- A step that walking keeps: it is neither empty nor a single dot, and has no slash in it. -/
structure IsStep (step : String) : Prop where
  filled : step ≠ ""
  moving : step ≠ "."
  whole : '/' ∉ step.toList

/-- Steps in reverse that walking leaves as they are: two dots come only before all others. -/
def Settled : List String → Prop
  | [] => True
  | last :: before => IsStep last ∧ (last = ".." → ∀ step ∈ before, step = "..") ∧ Settled before

theorem isStep_back : IsStep ".." :=
  ⟨by decide, by decide, by decide⟩

/-- One step of a walk. -/
def advance (walked : List String) (step : String) : List String :=
  if step = "" ∨ step = "." then walked
  else if step = ".." then
    match walked with
    | [] => [".."]
    | last :: before => if last = ".." then ".." :: walked else before
  else step :: walked

theorem walk_cons (walked : List String) (step : String) (rest : List String) :
    walk walked (step :: rest) = walk (advance walked step) rest := by
  cases walked with
  | nil => simp only [walk, advance, apply_ite (walk · rest), beq_iff_eq, Bool.or_eq_true]
  | cons last before =>
    simp only [walk, advance, apply_ite (walk · rest), beq_iff_eq, Bool.or_eq_true]

theorem settled_advance {walked : List String} {step : String} (settled : Settled walked)
    (whole : '/' ∉ step.toList) : Settled (advance walked step) := by
  unfold advance
  split
  case isTrue => exact settled
  case isFalse moved =>
    obtain ⟨filled, moving⟩ := not_or.mp moved
    split
    case isFalse forward =>
      exact ⟨⟨filled, moving, whole⟩, fun back => absurd back forward, settled⟩
    case isTrue back =>
      cases walked with
      | nil => exact ⟨isStep_back, fun _ => List.forall_mem_nil _, trivial⟩
      | cons last before =>
        dsimp only
        split
        case isTrue again =>
          exact ⟨isStep_back, fun _ => List.forall_mem_cons.mpr ⟨again, settled.2.1 again⟩, settled⟩
        case isFalse => exact settled.2.2

theorem advance_settled {walked : List String} {step : String}
    (settled : Settled (step :: walked)) :
    advance walked step = step :: walked := by
  obtain ⟨⟨filled, moving, -⟩, backs, -⟩ := settled
  unfold advance
  rw [if_neg (not_or.mpr ⟨filled, moving⟩)]
  split
  case isFalse => rfl
  case isTrue back =>
    subst back
    cases walked with
    | nil => rfl
    | cons last before => exact if_pos (backs rfl last List.mem_cons_self)

theorem settled_walk {walked steps : List String} (settled : Settled walked)
    (whole : ∀ step ∈ steps, '/' ∉ step.toList) : Settled (walk walked steps) := by
  induction steps generalizing walked with
  | nil => exact settled
  | cons step rest ih =>
    obtain ⟨here, later⟩ := List.forall_mem_cons.mp whole
    rw [walk_cons]
    exact ih (settled_advance settled here) later

theorem Settled.of_append {first second : List String} (settled : Settled (first ++ second)) :
    Settled second := by
  induction first with
  | nil => exact settled
  | cons step rest ih => exact ih settled.2.2

theorem walk_settled {walked steps : List String} (settled : Settled (steps.reverse ++ walked)) :
    walk walked steps = steps.reverse ++ walked := by
  induction steps generalizing walked with
  | nil => rfl
  | cons step rest ih =>
    rw [List.reverse_cons, List.append_assoc, List.singleton_append] at settled ⊢
    rw [walk_cons, advance_settled settled.of_append]
    exact ih settled

theorem Settled.isStep {walked : List String} (settled : Settled walked) :
    ∀ step ∈ walked, IsStep step := by
  induction walked with
  | nil => exact List.forall_mem_nil _
  | cons last before ih => exact List.forall_mem_cons.mpr ⟨settled.1, ih settled.2.2⟩

theorem settled_normalSteps (path : String) : Settled (normalSteps path).reverse := by
  rw [normalSteps, List.reverse_reverse]
  exact settled_walk trivial fun step listed => notMem_of_mem_split listed

/-! ## 3. Normal forms -/

theorem toList_ofSteps (absolute : Bool) (steps : List String) :
    (ofSteps absolute steps).toList =
      (if absolute then ['/'] else []) ++ ['/'].intercalate (steps.map String.toList) := by
  rw [ofSteps, String.toList_append, String.toList_intercalate]
  cases absolute <;> rfl

/-- The slash at the start of a path makes an empty step, which walking skips. -/
theorem walk_steps_ofSteps (absolute : Bool) {steps : List String}
    (isSteps : ∀ step ∈ steps, IsStep step) :
    walk [] (Path.steps (ofSteps absolute steps)) = walk [] steps := by
  have relative : walk [] ((partsAt '/' (['/'].intercalate (steps.map String.toList))).map
      String.ofList) = walk [] steps := by
    cases steps with
    | nil => rfl
    | cons step rest =>
      rw [partsAt_intercalate (by simp) (by simpa using fun step listed =>
        (isSteps step listed).whole), List.map_map]
      simp [Function.comp_def]
  rw [Path.steps, Text.split, toList_ofSteps]
  cases absolute
  · exact relative
  · rw [if_pos rfl, List.singleton_append, partsAt, if_pos (beq_self_eq_true _), List.map_cons]
    exact relative

theorem isAbsolute_ofSteps (absolute : Bool) {steps : List String}
    (isSteps : ∀ step ∈ steps, IsStep step) : isAbsolute (ofSteps absolute steps) = absolute := by
  rw [isAbsolute, toList_ofSteps]
  cases absolute
  · cases steps with
    | nil => rfl
    | cons step rest =>
      have first := isSteps step List.mem_cons_self
      cases text : step.toList with
      | nil => exact absurd (String.toList_eq_nil_iff.mp text) first.filled
      | cons c others =>
        have slash : c ≠ '/' := fun same => first.whole (by simp [text, same])
        cases rest <;> simp [text, slash, List.intercalate_cons_cons]
  · rfl

/-- The normal form of a path is its own normal form. -/
theorem normal_normal (path : String) : normal (normal path) = normal path := by
  have settled := settled_normalSteps path
  have isSteps : ∀ step ∈ normalSteps path, IsStep step := fun step listed =>
    settled.isStep step (List.mem_reverse.mpr listed)
  have walked : walk [] (normalSteps path) = (normalSteps path).reverse := by
    rw [walk_settled (by rwa [List.append_nil]), List.append_nil]
  have again : normalSteps (normal path) = normalSteps path := by
    rw [normalSteps, normal, walk_steps_ofSteps _ isSteps, walked, List.reverse_reverse]
  have kind : isAbsolute (normal path) = isAbsolute path := isAbsolute_ofSteps _ isSteps
  rw [normal, again, kind, normal]

theorem normal_within (directory path : String) :
    normal (within directory path) = within directory path := by
  rw [within]
  split <;> exact normal_normal _

end Path

/-! ## 4. Files -/

theorem Files.read_write {files files' : Files} {path text : String}
    (written : files.write path text = .ok files') : files'.read path = .ok text := by
  unfold Files.write at written
  split at written
  · cases written
    rw [Files.read, Table.get?_put]
  · cases written

end Landform
