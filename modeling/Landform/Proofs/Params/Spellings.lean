import Landform.Params.Update
import Mathlib

/-!
# Spellings of field names

The name of a field is made of segments. The plain style joins them by underscores; the style of the
editor runs them together and begins each one but the first with a capital. A segment has no capital
of its own, so the capitals of an editor's name stand exactly where its later segments begin: with
an underscore before each of them and in lower case, the name is the plain one. A plain name has no
capital at all and stays as it is. Only the names that follow no rule are looked up instead.

1. `isSegment`, `snakeCase`, `camelCase`: segments and the two spellings.
2. `lower_ofList`: the lower-case form of ASCII text, character by character.
3. `splitCapitals_camelCase`, `splitCapitals_eq_self`: where the underscores go.
   `lower_splitCapitals_camelCase`, `lower_splitCapitals_snakeCase`: what the rule makes of both
   spellings.
4. `canonicalField_spellings`: both spellings name the field by its plain spelling.
-/

namespace Landform

open Text

/-! ## 1. Segments and spellings -/

/-- The characters of a segment. -/
def isSegmentChar (c : Char) : Bool :=
  c.isLower || c.isDigit

/-- A segment of a field name: a small letter, then small letters and digits. -/
def isSegment (segment : String) : Bool :=
  match segment.toList with
  | [] => false
  | first :: rest => first.isLower && rest.all isSegmentChar

/-- The plain spelling: the segments joined by underscores. -/
def snakeCase (segments : List String) : String :=
  "_".intercalate segments

/-- A segment with its first letter as a capital. -/
def capitalised (segment : String) : String :=
  String.ofList (segment.toList.modifyHead Char.toUpper)

/-- The editor's spelling: the first segment as it is, each later one capitalised. -/
def camelCase : List String → String
  | [] => ""
  | first :: later => first ++ String.join (later.map capitalised)

theorem isSegment_iff {segment : String} : isSegment segment = true ↔
    ∃ first rest, segment.toList = first :: rest ∧ first.isLower = true ∧
      ∀ c ∈ rest, isSegmentChar c = true := by
  unfold isSegment
  cases segment.toList with
  | nil => simp
  | cons first rest => simp

theorem isSegmentChar_of_mem {segment : String} (shaped : isSegment segment = true) :
    ∀ c ∈ segment.toList, isSegmentChar c = true := by
  obtain ⟨first, rest, spelled, small, others⟩ := isSegment_iff.mp shaped
  rw [spelled, List.forall_mem_cons]
  exact ⟨by simp [isSegmentChar, small], others⟩

theorem toList_snakeCase (first : String) (later : List String) :
    (snakeCase (first :: later)).toList =
      first.toList ++ later.flatMap fun segment => '_' :: segment.toList := by
  induction later generalizing first with
  | nil => simp [snakeCase]
  | cons next later ih =>
    have step : snakeCase (first :: next :: later) = first ++ "_" ++ snakeCase (next :: later) :=
      String.intercalate_cons_cons
    rw [step, String.toList_append, String.toList_append, ih, List.append_assoc]
    rfl

theorem toList_camelCase (first : String) (later : List String) :
    (camelCase (first :: later)).toList =
      first.toList ++ later.flatMap fun segment => (capitalised segment).toList := by
  rw [camelCase, String.toList_append, String.toList_join, List.flatMap_map]

/-! ## 2. Lower case -/

theorem lowerFrom_eq_map {text : List Char} (ascii : ∀ c ∈ text, c.toNat < 128)
    (before : List Char) : lowerFrom before text = text.map Char.toLower := by
  induction text generalizing before with
  | nil => rfl
  | cons c rest ih =>
    obtain ⟨here, later⟩ := List.forall_mem_cons.mp ascii
    have sigma : (c == 'Σ') = false := beq_false_of_ne fun same => absurd (same ▸ here) (by decide)
    have dotted : (c == 'İ') = false := beq_false_of_ne fun same => absurd (same ▸ here) (by decide)
    rw [lowerFrom, ih later, sigma, dotted, lowerChar, if_pos here]
    rfl

theorem lower_ofList {text : List Char} (ascii : ∀ c ∈ text, c.toNat < 128) :
    lower (String.ofList text) = String.ofList (text.map Char.toLower) := by
  rw [lower, String.toList_ofList, lowerFrom_eq_map ascii]

theorem isSegmentChar_iff {c : Char} : isSegmentChar c = true ↔
    97 ≤ c.toNat ∧ c.toNat ≤ 122 ∨ 48 ≤ c.toNat ∧ c.toNat ≤ 57 := by
  simp [isSegmentChar, Char.isLower, Char.isDigit, UInt32.le_iff_toNat_le]

theorem isUpper_iff {c : Char} : c.isUpper = true ↔ 65 ≤ c.toNat ∧ c.toNat ≤ 90 := by
  simp [Char.isUpper, UInt32.le_iff_toNat_le]

theorem lt_of_isSegmentChar {c : Char} (plain : isSegmentChar c = true) : c.toNat < 128 := by
  have range := isSegmentChar_iff.mp plain
  omega

theorem not_isUpper_of_isSegmentChar {c : Char} (plain : isSegmentChar c = true) :
    ¬ c.isUpper = true := by
  have range := isSegmentChar_iff.mp plain
  rw [isUpper_iff]
  omega

theorem map_toLower_eq_self {text : List Char} (small : ∀ c ∈ text, ¬ c.isUpper = true) :
    text.map Char.toLower = text := by
  have each : text.map Char.toLower = text.map id :=
    List.map_congr_left fun c member => Char.toLower_eq_of_not_isUpper (small c member)
  rw [each, List.map_id]

/-! ## 3. Where the underscores go -/

/-- A character behind the start of a name: a capital comes with an underscore before it. -/
def marked (c : Char) : List Char :=
  if c.isUpper then ['_', c] else [c]

theorem splitCapitals_cons (c : Char) (rest : List Char) :
    splitCapitals (c :: rest) = c :: rest.flatMap marked :=
  rfl

theorem flatMap_marked_eq_self {text : List Char} (small : ∀ c ∈ text, ¬ c.isUpper = true) :
    text.flatMap marked = text := by
  have each : text.flatMap marked = text.flatMap fun c => [c] :=
    List.flatMap_congr fun c member => if_neg (small c member)
  rw [each, List.flatMap_singleton']

theorem splitCapitals_eq_self {text : List Char} (small : ∀ c ∈ text, ¬ c.isUpper = true) :
    splitCapitals text = text := by
  cases text with
  | nil => rfl
  | cons c rest =>
    rw [splitCapitals_cons, flatMap_marked_eq_self (List.forall_mem_cons.mp small).2]

/-- A capitalised segment is a capital and then what follows the small letter in the segment. -/
theorem exists_capital {segment : String} (shaped : isSegment segment = true) :
    ∃ capital rest, (capitalised segment).toList = capital :: rest ∧ capital.isUpper = true ∧
      segment.toList = capital.toLower :: rest ∧ ∀ c ∈ rest, isSegmentChar c = true := by
  obtain ⟨first, rest, spelled, small, others⟩ := isSegment_iff.mp shaped
  refine ⟨first.toUpper, rest, ?_, ?_, ?_, others⟩
  · rw [capitalised, String.toList_ofList, spelled, List.modifyHead_cons]
  · rw [Char.isUpper_toUpper_eq_isAlpha, Char.isAlpha, small, Bool.or_true]
  · rw [Char.toLower_toUpper_eq_toLower,
      Char.toLower_eq_of_not_isUpper (Char.not_isUpper_of_isLower small), spelled]

section Capitalised

variable {segment : String} (shaped : isSegment segment = true)

include shaped

theorem flatMap_marked_capitalised :
    (capitalised segment).toList.flatMap marked = '_' :: (capitalised segment).toList := by
  -- only the capital gets an underscore
  obtain ⟨capital, rest, spelled, upper, _, others⟩ := exists_capital shaped
  have small : rest.flatMap marked = rest :=
    flatMap_marked_eq_self fun c member => not_isUpper_of_isSegmentChar (others c member)
  rw [spelled, List.flatMap_cons, small, marked, if_pos upper]
  rfl

theorem map_toLower_capitalised :
    (capitalised segment).toList.map Char.toLower = segment.toList := by
  obtain ⟨capital, rest, spelled, _, plain, others⟩ := exists_capital shaped
  have small : rest.map Char.toLower = rest :=
    map_toLower_eq_self fun c member => not_isUpper_of_isSegmentChar (others c member)
  rw [spelled, List.map_cons, small, plain]

theorem lt_of_mem_capitalised : ∀ c ∈ (capitalised segment).toList, c.toNat < 128 := by
  obtain ⟨capital, rest, spelled, upper, _, others⟩ := exists_capital shaped
  have range := isUpper_iff.mp upper
  rw [spelled, List.forall_mem_cons]
  exact ⟨by omega, fun c member => lt_of_isSegmentChar (others c member)⟩

end Capitalised

section Shaped

variable {first : String} {later : List String}
  (shaped : ∀ segment ∈ first :: later, isSegment segment = true)

include shaped

/-- The editor's spelling gets its underscores where the later segments begin. -/
theorem splitCapitals_camelCase : splitCapitals (camelCase (first :: later)).toList =
    first.toList ++ later.flatMap fun segment => '_' :: (capitalised segment).toList := by
  obtain ⟨here, others⟩ := List.forall_mem_cons.mp shaped
  obtain ⟨c, rest, spelled, _, plain⟩ := isSegment_iff.mp here
  have start : rest.flatMap marked = rest :=
    flatMap_marked_eq_self fun c member => not_isUpper_of_isSegmentChar (plain c member)
  have segments : (later.flatMap fun segment => (capitalised segment).toList).flatMap marked =
      later.flatMap fun segment => '_' :: (capitalised segment).toList := by
    rw [List.flatMap_assoc]
    exact List.flatMap_congr fun segment listed =>
      flatMap_marked_capitalised (others segment listed)
  rw [toList_camelCase, spelled, List.cons_append, splitCapitals_cons, List.flatMap_append, start,
    segments, List.cons_append]

/-- In lower case, the segments of the editor's spelling are those of the plain one. -/
theorem lower_splitCapitals_camelCase :
    lower (String.ofList (splitCapitals (camelCase (first :: later)).toList)) =
      snakeCase (first :: later) := by
  obtain ⟨here, others⟩ := List.forall_mem_cons.mp shaped
  have start := isSegmentChar_of_mem here
  have ascii : ∀ c ∈ first.toList ++
      later.flatMap fun segment => '_' :: (capitalised segment).toList, c.toNat < 128 := by
    refine List.forall_mem_append.mpr ⟨fun c member => lt_of_isSegmentChar (start c member), ?_⟩
    intro c member
    obtain ⟨segment, listed, member⟩ := List.mem_flatMap.mp member
    rcases List.mem_cons.mp member with rfl | member
    · decide
    · exact lt_of_mem_capitalised (others segment listed) c member
  have segments : (later.flatMap fun segment => '_' :: (capitalised segment).toList).map
      Char.toLower = later.flatMap fun segment => '_' :: segment.toList := by
    rw [List.map_flatMap]
    refine List.flatMap_congr fun segment listed => ?_
    rw [List.map_cons, map_toLower_capitalised (others segment listed)]
    rfl
  rw [splitCapitals_camelCase shaped, lower_ofList ascii, List.map_append, segments,
    map_toLower_eq_self fun c member => not_isUpper_of_isSegmentChar (start c member),
    ← toList_snakeCase, String.ofList_toList]

theorem mem_snakeCase : ∀ c ∈ (snakeCase (first :: later)).toList,
    isSegmentChar c = true ∨ c = '_' := by
  obtain ⟨here, others⟩ := List.forall_mem_cons.mp shaped
  rw [toList_snakeCase]
  refine List.forall_mem_append.mpr ⟨fun c member => .inl (isSegmentChar_of_mem here c member), ?_⟩
  intro c member
  obtain ⟨segment, listed, member⟩ := List.mem_flatMap.mp member
  rcases List.mem_cons.mp member with rfl | member
  · exact .inr rfl
  · exact .inl (isSegmentChar_of_mem (others segment listed) c member)

/-- The plain spelling has no capitals, so it stays as it is. -/
theorem lower_splitCapitals_snakeCase :
    lower (String.ofList (splitCapitals (snakeCase (first :: later)).toList)) =
      snakeCase (first :: later) := by
  have small : ∀ c ∈ (snakeCase (first :: later)).toList, ¬ c.isUpper = true := by
    intro c member
    rcases mem_snakeCase shaped c member with plain | rfl
    · exact not_isUpper_of_isSegmentChar plain
    · decide
  have ascii : ∀ c ∈ (snakeCase (first :: later)).toList, c.toNat < 128 := by
    intro c member
    rcases mem_snakeCase shaped c member with plain | rfl
    · exact lt_of_isSegmentChar plain
    · decide
  rw [splitCapitals_eq_self small, lower_ofList ascii, map_toLower_eq_self small,
    String.ofList_toList]

end Shaped

/-! ## 4. The field that a spelling names -/

/-- A name that is no alias is decoded by the rule. -/
theorem canonicalField_of_notMem {name : String} (ruled : name ∉ Table.names fieldAliases) :
    canonicalField name = lower (String.ofList (splitCapitals name.toList)) := by
  have absent : fieldAliases.find? (·.1 == name) = none :=
    List.find?_eq_none.mpr fun entry listed same =>
      ruled (eq_of_beq same ▸ List.mem_map_of_mem listed)
  rw [canonicalField, absent]

/-- For segments of any number and any length, unless one of their spellings is an alias, the
editor's spelling and the plain one both name the field by the plain one. -/
theorem canonicalField_spellings {segments : List String} (nonempty : segments ≠ [])
    (shaped : ∀ segment ∈ segments, isSegment segment = true)
    (snake : snakeCase segments ∉ Table.names fieldAliases)
    (camel : camelCase segments ∉ Table.names fieldAliases) :
    canonicalField (camelCase segments) = snakeCase segments ∧
      canonicalField (snakeCase segments) = snakeCase segments := by
  obtain ⟨first, later, rfl⟩ := List.exists_cons_of_ne_nil nonempty
  rw [canonicalField_of_notMem camel, canonicalField_of_notMem snake]
  exact ⟨lower_splitCapitals_camelCase shaped, lower_splitCapitals_snakeCase shaped⟩

/-- The spellings that are aliases name another field. -/
example : snakeCase ["material", "kind"] = "material_kind" ∧
    canonicalField (camelCase ["material", "kind"]) = "material" ∧
    canonicalField (snakeCase ["material", "kind"]) = "material" := by
  decide +kernel

/-- Segments of one letter, and segments with digits, are told apart as well. -/
theorem octave_canonicalField_spellings :
    camelCase ["octave2", "x", "y10", "weight"] = "octave2XY10Weight" ∧
    snakeCase ["octave2", "x", "y10", "weight"] = "octave2_x_y10_weight" ∧
    canonicalField "octave2XY10Weight" = "octave2_x_y10_weight" ∧
    canonicalField "octave2_x_y10_weight" = "octave2_x_y10_weight" := by
  have camel : camelCase ["octave2", "x", "y10", "weight"] = "octave2XY10Weight" := by
    decide +kernel
  have snake : snakeCase ["octave2", "x", "y10", "weight"] = "octave2_x_y10_weight" := by
    decide +kernel
  have named := canonicalField_spellings (List.cons_ne_nil "octave2" ["x", "y10", "weight"])
    (by decide +kernel) (by decide +kernel) (by decide +kernel)
  rw [camel, snake] at named
  exact ⟨camel, snake, named⟩

end Landform
