import Landform.Script.Compile
import Mathlib

/-!
# Noise flags as text

A text gives the flags that its tokens name, the parts between commas and blanks, in any order, as
often as they like and in any case; it gives none if a token is no name of a flag. A script writes
the names of flags between blanks. Reading these gives flags that may lack the bits beyond the
three, but no noise field sees those.

1. `tokens`, `fields_eq_tokens`: the parts of a text.
2. `Named`, `ofValue_text`: what a text of names gives.
3. `bits_ofInt`: what an integer gives.
4. `spelled_exported`, `Alike`: names written and read again.
5. `flags_reread`: all of it.
-/

namespace Landform.Text

/-! ## 1. Tokens -/

theorem modifyHead_nil_append (parts : List (List Char)) :
    parts.modifyHead ([].reverse ++ ·) = parts := by
  cases parts <;> rfl

/-- The runs of a class are what is left of the parts between all other characters without those
that are empty. -/
theorem runsFrom_eq (member : Char → Bool) (run text : List Char) :
    runsFrom member run text =
      (((text.splitOnP fun c => !member c).modifyHead (run.reverse ++ ·)).filter
        (!·.isEmpty)).map String.ofList := by
  induction text generalizing run with
  | nil => cases run <;> simp [runsFrom]
  | cons c rest ih =>
    rw [List.splitOnP_cons_eq_if_modifyHead]
    by_cases inside : member c = true
    · have longer : runsFrom member run (c :: rest) = runsFrom member (c :: run) rest := by
        cases run <;> simp [runsFrom, inside]
      rw [longer, ih, if_neg (by simp [inside]), List.modifyHead_modifyHead]
      congr 4
      funext part
      simp
    · have fresh := ih []
      rw [modifyHead_nil_append] at fresh
      cases run <;> simp [runsFrom, inside, fresh]

/-- The parts of a text between the blanks and commas that are not empty. -/
def tokens (text : String) : List String :=
  ((text.toList.splitOnP fun c => isBlank c || c == ',').filter (!·.isEmpty)).map String.ofList

theorem fields_eq_tokens (text : String) : fields (· == ',') text = tokens text := by
  have separators : (fun c => !(!isBlank c && !(c == ','))) = fun c => isBlank c || c == ',' := by
    funext c
    simp
  rw [fields, runs, runsFrom_eq, modifyHead_nil_append, tokens, separators]

end Landform.Text

namespace Landform.Noise

open Text

namespace Flags

/-! ## 2. Texts -/

/-- The name of each bit, in capitals. -/
def bitNames : List String := ["DEFAULTS", "EASED", "ABSVALUE"]

/-- The names that a flag can have. One of them stands for no bit. -/
def capitals : List String := "NONE" :: bitNames

/-- Flags are those that names stand for: their bits are the bits of the names, and no others. -/
def Named (names : List String) (flags : Flags) : Prop :=
  ∀ index, flags.bit index = true ↔ ∃ name ∈ names, bitNames[index]? = some name

theorem eq_of_bit {a b : Flags} (same : ∀ index, a.bit index = b.bit index) : a = b := by
  obtain ⟨m⟩ := a
  obtain ⟨n⟩ := b
  exact congrArg mk (Nat.eq_of_testBit_eq same)

theorem Named.unique {names names' : List String} {a b : Flags} (named : Named names a)
    (named' : Named names' b) (same : ∀ name, name ∈ names ↔ name ∈ names') : a = b := by
  refine eq_of_bit fun index => Bool.eq_iff_iff.mpr ?_
  rw [named index, named' index]
  simp only [same]

theorem named_none : Named [] none := fun index => by simp [bit, none]

theorem bit_union (a b : Flags) (index : Nat) :
    (a.union b).bit index = (a.bit index || b.bit index) :=
  Nat.testBit_lor ..

theorem ofName?_eq_none {name : String} : ofName? name = .none ↔ name ∉ capitals := by
  unfold ofName?
  split <;> simp_all [capitals, bitNames]

theorem named_ofName? {name : String} {flag : Flags} (known : ofName? name = some flag) :
    Named [name] flag := by
  intro index
  unfold ofName? at known
  split at known <;> cases known <;>
    match index with
    | 0 | 1 | 2 => decide
    | index + 3 =>
      have beyond : bitNames[index + 3]? = Option.none := rfl
      simp only [beyond, reduceCtorEq, and_false, exists_false, iff_false, bit]
      exact Bool.not_eq_true _ ▸ Nat.testBit_lt_two_pow
        (lt_of_lt_of_le (by decide) (Nat.pow_le_pow_right Nat.two_pos (Nat.le_add_left 3 index)))

theorem Named.union {names names' : List String} {a b : Flags} (named : Named names a)
    (named' : Named names' b) : Named (names ++ names') (a.union b) := by
  intro index
  rw [bit_union, Bool.or_eq_true, named index, named' index]
  simp only [List.mem_append, or_and_right, exists_or]

/-- Names that are all known give their flags, together with those that were there. -/
theorem ofNames_known {flags : Flags} {before tokens : List String} (named : Named before flags)
    (known : ∀ token ∈ tokens, upperAscii token ∈ capitals) :
    ∃ sum, ofNames flags tokens = .ok sum ∧ Named (before ++ tokens.map upperAscii) sum := by
  induction tokens generalizing flags before with
  | nil => exact ⟨flags, rfl, by simpa using named⟩
  | cons token rest ih =>
    obtain ⟨first, others⟩ := List.forall_mem_cons.mp known
    obtain ⟨flag, found⟩ : ∃ flag, ofName? (upperAscii token) = some flag :=
      Option.ne_none_iff_exists'.mp fun unknown => ofName?_eq_none.mp unknown first
    obtain ⟨sum, done, all⟩ := ih (named.union (named_ofName? found)) others
    refine ⟨sum, ?_, by simpa using all⟩
    rw [ofNames, found]
    exact done

/-- A name that is not known makes the text fail. -/
theorem ofNames_unknown {tokens : List String} (flags : Flags)
    (unknown : ∃ token ∈ tokens, upperAscii token ∉ capitals) :
    ∃ token, ofNames flags tokens = .error (.unknownFlag token) := by
  induction tokens generalizing flags with
  | nil =>
    obtain ⟨token, listed, _⟩ := unknown
    exact absurd listed List.not_mem_nil
  | cons first rest ih =>
    rw [ofNames]
    cases found : ofName? (upperAscii first) with
    | none => exact ⟨first, rfl⟩
    | some flag =>
      obtain ⟨token, listed, absent⟩ := unknown
      rcases List.mem_cons.mp listed with rfl | later
      · exact absurd (found.symm.trans (ofName?_eq_none.mpr absent)) (Option.some_ne_none flag)
      · exact ih _ ⟨token, later, absent⟩

/-- The names of a text: its tokens in capitals. -/
def spelled (text : String) : List String :=
  (tokens text).map upperAscii

theorem ofValue_text (text : String) (known : ∀ name ∈ spelled text, name ∈ capitals) :
    ∃ flags, ofValue (.text text) = .ok flags ∧ Named (spelled text) flags := by
  rw [ofValue, fields_eq_tokens]
  exact ofNames_known named_none (List.forall_mem_map.mp known)

theorem ofValue_text_unknown (text : String) (unknown : ∃ name ∈ spelled text, name ∉ capitals) :
    ∃ token, ofValue (.text text) = .error (.unknownFlag token) := by
  obtain ⟨name, listed, absent⟩ := unknown
  obtain ⟨token, written, rfl⟩ := List.mem_map.mp listed
  rw [ofValue, fields_eq_tokens]
  exact ofNames_unknown none ⟨token, written, absent⟩

/-! ## 3. Integers -/

theorem lt_two_pow_bitLength (n : Nat) : n < 2 ^ bitLength n := by
  rw [bitLength]
  split
  · next zero => simp [zero]
  · exact Nat.lt_log2_self

/-- The three bits of an integer, also of a negative one, are those of its flags. -/
theorem bits_ofInt (n : Int) : ((ofInt n).bits : Int) % 8 = n % 8 := by
  unfold ofInt
  split_ifs with whole small
  · exact congrArg (· % 8) (Int.toNat_of_nonneg whole)
  · have sum : 0 ≤ n + 8 := by omega
    show ((n + 8).toNat : Int) % 8 = n % 8
    omega
  · -- an integer below minus eight has at least four digits
    have long : n.natAbs < 2 ^ bitLength n.natAbs := lt_two_pow_bitLength _
    obtain ⟨k, width⟩ : ∃ k, bitLength n.natAbs = k + 3 := by
      refine ⟨bitLength n.natAbs - 3, (Nat.sub_add_cancel ?_).symm⟩
      by_contra short
      have : 2 ^ bitLength n.natAbs ≤ 2 ^ 2 := Nat.pow_le_pow_right Nat.two_pos (by omega)
      omega
    rw [width] at long ⊢
    have power : (2 : Int) ^ (k + 3) = 2 ^ k * 8 := by rw [pow_add]; norm_num
    have wide : (n.natAbs : Int) < 2 ^ k * 8 := by
      rw [← power]
      exact_mod_cast long
    show ((n + 2 ^ (k + 3)).toNat : Int) % 8 = n % 8
    rw [power]
    omega

/-! ## 4. Names written and read again -/

/-- The names of flags as a script writes them. -/
def exported (flags : Flags) : String :=
  " ".intercalate flags.names

theorem exported_mem_lines (r : Script.Registration) :
    Script.indented 2 ("flags = \"" ++ r.settings.flags.exported ++ "\"") ∈ r.lines := by
  unfold Script.Registration.lines
  simp [exported]

theorem spelled_exported (flags : Flags) :
    spelled flags.exported = (if flags.bit 0 then ["DEFAULTS"] else []) ++
      (if flags.bit 1 then ["EASED"] else []) ++ if flags.bit 2 then ["ABSVALUE"] else [] := by
  rw [exported, names, hasDefaults, hasEased, hasAbsvalue]
  cases flags.bit 0 <;> cases flags.bit 1 <;> cases flags.bit 2 <;> decide +kernel

/-- No noise field can tell two sets of flags apart. -/
structure Alike (a b : Flags) : Prop where
  defaults : a.hasDefaults = b.hasDefaults
  eased : a.hasEased = b.hasEased
  absvalue : a.hasAbsvalue = b.hasAbsvalue
  plane : ∀ {α : Type} [Scalar α] (s : Settings α) (x y : α) (offset : Int),
    { s with flags := a }.fractal2 x y offset = { s with flags := b }.fractal2 x y offset
  space : ∀ {α : Type} [Scalar α] (s : Settings3 α) (x y z : α) (offset : Int),
    { s with flags := a }.fractal3 x y z offset = { s with flags := b }.fractal3 x y z offset

/-- The noise fields see the three bits only. -/
theorem alike_of_bits {a b : Flags} (defaults : a.hasDefaults = b.hasDefaults)
    (eased : a.hasEased = b.hasEased) (absvalue : a.hasAbsvalue = b.hasAbsvalue) : Alike a b where
  defaults := defaults
  eased := eased
  absvalue := absvalue
  plane s x y offset := by
    simp only [Settings.fractal2, Settings.sum, fold, eases2, defaults, eased, absvalue]
  space s x y z offset := by
    simp only [Settings3.fractal3, Settings.sum, fold, eases3, eased, absvalue]

theorem ofValue_exported (flags : Flags) :
    ∃ again, ofValue (.text flags.exported) = .ok again ∧ Alike flags again := by
  have names := spelled_exported flags
  obtain ⟨again, done, named⟩ := ofValue_text flags.exported (by
    rw [names]
    cases flags.bit 0 <;> cases flags.bit 1 <;> cases flags.bit 2 <;> decide)
  have bits (index : Nat) (low : index < 3) : flags.bit index = again.bit index := by
    rw [Bool.eq_iff_iff, named index, names]
    interval_cases index <;>
      cases flags.bit 0 <;> cases flags.bit 1 <;> cases flags.bit 2 <;> decide
  exact ⟨again, done, alike_of_bits (bits 0 (by decide)) (bits 1 (by decide)) (bits 2 (by decide))⟩

/-! ## 5. Flags of texts and integers -/

/-- A text fails, as a bad value, exactly if one of its names is no name of a flag, and otherwise
gives the flags that its names stand for; so only the set of the names matters. Whatever flags are
read from, the names that a script writes for them are read as flags that no noise field can tell
apart from them; the flags of an integer are its three bits, and further ones. -/
theorem flags_reread :
    (∀ text, ((∃ cause, ofValue (.text text) = .error cause ∧ cause.family = .badValue) ↔
        ∃ name ∈ spelled text, name ∉ capitals) ∧
      ((∀ name ∈ spelled text, name ∈ capitals) →
        ∃ flags, ofValue (.text text) = .ok flags ∧ Named (spelled text) flags)) ∧
    (∀ text text' flags, (∀ name, name ∈ spelled text ↔ name ∈ spelled text') →
      ofValue (.text text) = .ok flags → ofValue (.text text') = .ok flags) ∧
    (∀ n, ∃ flags, ofValue (.int n) = .ok flags ∧ (flags.bits : Int) % 8 = n % 8) ∧
    ∀ value flags, ofValue value = .ok flags →
      (∃ again, ofValue (.text flags.exported) = .ok again ∧ Alike flags again) ∧
        ∀ r : Script.Registration, r.settings.flags = flags →
          Script.indented 2 ("flags = \"" ++ flags.exported ++ "\"") ∈ r.lines := by
  refine ⟨fun text => ⟨⟨?_, ?_⟩, ofValue_text text⟩, ?_, fun n => ⟨_, rfl, bits_ofInt n⟩, ?_⟩
  · rintro ⟨cause, failed, _⟩
    by_contra all
    obtain ⟨flags, done, _⟩ := ofValue_text text (by simpa using all)
    rw [done] at failed
    cases failed
  · intro unknown
    obtain ⟨token, failed⟩ := ofValue_text_unknown text unknown
    exact ⟨_, failed, rfl⟩
  · intro text text' flags same done
    have known : ∀ name ∈ spelled text, name ∈ capitals := by
      by_contra some
      obtain ⟨token, failed⟩ := ofValue_text_unknown text (by simpa using some)
      rw [done] at failed
      cases failed
    obtain ⟨first, given, named⟩ := ofValue_text text known
    obtain ⟨second, done', named'⟩ :=
      ofValue_text text' fun name listed => known name ((same name).mpr listed)
    rw [done] at given
    cases given
    rw [done', named.unique named' same]
  · rintro value flags -
    refine ⟨ofValue_exported flags, ?_⟩
    rintro r rfl
    exact exported_mem_lines r

/-- Names in any case and order, one of them twice and one with the long s, and an integer whose
bits beyond the three are negative. -/
theorem mixed_reread :
    (∀ name ∈ spelled "eaſed,\tABSVALUE ,,Eased none", name ∈ capitals) ∧
    ofValue (.text "eaſed,\tABSVALUE ,,Eased none") = .ok ⟨6⟩ ∧
    ofValue (.text "absvalue eased none") = .ok ⟨6⟩ ∧
    (∃ cause, ofValue (.text "eased;absvalue") = .error cause ∧ cause.family = .badValue) ∧
    ofValue (.int (-27)) = .ok ⟨5⟩ ∧
    ∃ again, ofValue (.text (exported ⟨5⟩)) = .ok again ∧ Alike ⟨5⟩ again := by
  obtain ⟨texts, same, -, exports⟩ := flags_reread
  have long : spelled "eaſed,\tABSVALUE ,,Eased none" = ["EASED", "ABSVALUE", "EASED", "NONE"] := by
    decide +kernel
  have short : spelled "absvalue eased none" = ["ABSVALUE", "EASED", "NONE"] := by decide +kernel
  have known : ∀ name ∈ spelled "eaſed,\tABSVALUE ,,Eased none", name ∈ capitals := by
    rw [long]
    decide
  have first : ofValue (.text "eaſed,\tABSVALUE ,,Eased none") = .ok ⟨6⟩ := by rfl
  refine ⟨known, first, same _ _ _ (fun name => ?_) first, (texts _).1.mpr (by decide +kernel), rfl,
    (exports (.int (-27)) ⟨5⟩ rfl).1⟩
  rw [long, short]
  simp only [List.mem_cons, List.not_mem_nil, or_false]
  tauto

end Flags

end Landform.Noise
