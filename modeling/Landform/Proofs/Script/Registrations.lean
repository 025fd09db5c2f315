import Landform.Proofs.Lua.Tokens
import Landform.Proofs.Script.Lines

/-!
# Registrations of noise fields

A noise field is registered by a block of lines: a call with the name of the field, a table whose
lines give its fields their values, and the end of the call. The block can be read field by field:
each field has one line, and the value there is that of the node.

1. `given?`, `given?_indented`: reading a line.
2. `Describes`, `Registered`: what a block says, and which block belongs to a node.
3. `registered_of_registration?`: the block that a script has for a node.
-/

namespace Landform.Script

open Lua Decimal

/-! ## 1. Fields of a table -/

/-- The value that a line gives to a field: what stands behind the equals sign, without the comma
that may end the line. -/
def given? (field line : String) : Option String :=
  let text := line.toList.dropWhile (· == ' ')
  let start := (field ++ " = ").toList
  if start.isPrefixOf text then
    let value := text.drop start.length
    some (String.ofList (if value.getLast? = some ',' then value.dropLast else value))
  else none

/-- The name of a field is one word. -/
def IsField (name : String) : Prop :=
  ' ' ∉ name.toList ∧ name.toList ≠ []

theorem dropWhile_indented (depth : Nat) {line : String} (other : line.toList.head? ≠ some ' ') :
    (indented depth line).toList.dropWhile (· == ' ') = line.toList := by
  have spaces : ∀ c ∈ (String.join (List.replicate depth step)).toList, (c == ' ') = true :=
    fun c listed => beq_iff_eq.mpr (indentation_join depth c listed)
  rw [indented, String.toList_append]
  exact (span_append spaces _ fun c first => beq_eq_false_iff_ne.mpr fun blank =>
    other (blank ▸ first)).2

/-- A line gives its value to the field that it names, and to no other one. -/
theorem given?_indented (depth : Nat) {text key value comma field : String}
    (entry : text = key ++ " = " ++ (value ++ comma)) (named : IsField key) (asked : IsField field)
    (ends : comma = "," ∨ comma = "" ∧ value.toList.getLast? ≠ some ',') :
    given? field (indented depth text) = if key = field then some value else none := by
  have head : text.toList.head? ≠ some ' ' := by
    obtain ⟨c, rest, start⟩ := List.exists_cons_of_ne_nil named.2
    have other : c ≠ ' ' := fun blank => named.1 (start ▸ blank ▸ List.mem_cons_self)
    simpa [entry, start] using other
  have begun : (field ++ " = ").toList.isPrefixOf text.toList = true ↔ key = field := by
    have shape : begins ("" ++ field ++ " = ") ("" ++ key ++ (" = " ++ (value ++ comma))) = true ↔
        key = field :=
      begins_iff_eq ' ' asked.1 named.1 ⟨['=', ' '], by decide⟩
    simpa only [entry, begins, String.empty_append, String.append_assoc] using shape
  rw [given?, dropWhile_indented depth head]
  dsimp only
  by_cases same : key = field
  · subst same
    rw [if_pos (begun.mpr rfl), if_pos rfl, entry, String.toList_append (s := key ++ " = "),
      List.drop_left]
    rcases ends with rfl | ⟨rfl, last⟩
    · simp
    · simp [last]
  · rw [if_neg fun inside => same (begun.mp inside), if_neg same]

/-! ## 2. What a block says -/

/-- What a block of lines says about a noise field: it opens the call with the name of the field,
gives each field of its table one value, and closes the call. -/
structure Describes (block : List String) (name dimension spread : String)
    (settings : Noise.Settings Float) : Prop where
  opens : block.head? = some ("luamap.register_noise(\"" ++ name ++ "\", \x7b")
  type : block.filterMap (given? "type") = ["\"" ++ dimension ++ "\""]
  offset : block.filterMap (given? "offset") = [number settings.offset]
  scale : block.filterMap (given? "scale") = [number settings.scale]
  spread : block.filterMap (given? "spread") = ["\x7b" ++ spread ++ "\x7d"]
  seed : block.filterMap (given? "seed") = [integerText settings.seed]
  octaves : block.filterMap (given? "octaves") = [integerText settings.octaves]
  persist : block.filterMap (given? "persist") = [number settings.persist]
  lacunarity : block.filterMap (given? "lacunarity") = [number settings.lacunarity]
  flags : block.filterMap (given? "flags") = ["\"" ++ " ".intercalate settings.flags.names ++ "\""]
  closes : block.getLast? = some "\x7d)"

/-- A block registers the noise field of a node with the settings of the node; a field in space has
a third spread. No other kind of node has a block. -/
def Registered (n : Node) (block : List String) : Prop :=
  match n.params with
  | .noise2d s =>
    Describes block ("noise_" ++ integerText n.id) "2d"
      ("x=" ++ number s.spreadX ++ ", y=" ++ number s.spreadY) s
  | .noise3d s =>
    Describes block ("noise_" ++ integerText n.id) "3d"
      ("x=" ++ number s.spreadX ++ ", y=" ++ number s.spreadY ++ ", z=" ++ number s.spreadZ)
      s.toSettings
  | _ => False

/-! ## 3. The blocks of a script -/

/-- The lines of a registration without the empty one behind them. -/
def Registration.block (r : Registration) : List String :=
  r.lines.dropLast

/-- The spread of a registration, as it is written. -/
def Registration.spread (r : Registration) : String :=
  let plane := "x=" ++ number r.settings.spreadX ++ ", y=" ++ number r.settings.spreadY
  match r.spreadZ with
  | some z => plane ++ ", z=" ++ number z
  | none => plane

/-- The type of a registration. -/
def Registration.dimension (r : Registration) : String :=
  if r.spreadZ.isSome then "3d" else "2d"

/-- The fields of the table of a registration, in the order of the lines. -/
def Registration.fields (r : Registration) : List (String × String) :=
  let s := r.settings
  [("type", "\"" ++ r.dimension ++ "\""), ("np_vals", "\x7b"), ("offset", number s.offset),
    ("scale", number s.scale), ("spread", "\x7b" ++ r.spread ++ "\x7d"),
    ("seed", integerText s.seed), ("octaves", integerText s.octaves),
    ("persist", number s.persist), ("lacunarity", number s.lacunarity),
    ("flags", "\"" ++ " ".intercalate s.flags.names ++ "\"")]

/-- The fields that a registration is asked for. -/
def settingNames : List String :=
  ["type", "offset", "scale", "spread", "seed", "octaves", "persist", "lacunarity", "flags"]

/-- The lines that give the fields of a registration their values. -/
def Registration.rows (r : Registration) : List String :=
  r.lines.tail.take r.fields.length

/-- A line gives one field its value, and no other one. -/
def Gives (line : String) (entry : String × String) : Prop :=
  ∀ field, IsField field → given? field line = if entry.1 = field then some entry.2 else none

theorem gives_indented (depth : Nat) {text key value : String} (comma : String)
    (entry : text = key ++ " = " ++ (value ++ comma)) (named : IsField key)
    (ends : comma = "," ∨ comma = "" ∧ value.toList.getLast? ≠ some ',') :
    Gives (indented depth text) (key, value) :=
  fun _ asked => given?_indented depth entry named asked ends

theorem gives_plain {label key : String} (value : String) (joined : label = key ++ " = ")
    (named : IsField key) : Gives (indented 2 (label ++ value ++ ",")) (key, value) :=
  gives_indented 2 "," (by rw [joined, String.append_assoc]) named (.inl rfl)

/-- Each field has its value on a line of its own. -/
theorem gives_rows (r : Registration) : List.Forall₂ Gives r.rows r.fields := by
  have word : ∀ entry ∈ r.fields, IsField entry.1 := by simp [Registration.fields, IsField]
  simp only [Registration.fields, List.forall_mem_cons, List.not_mem_nil, false_implies,
    implies_true, and_true] at word
  obtain ⟨type, table, offset, scale, spread, seed, octaves, persist, lacunarity, flags⟩ := word
  have dimension : Gives (indented 1 ("type = \"" ++ r.dimension ++ "\","))
      ("type", "\"" ++ r.dimension ++ "\"") :=
    gives_indented 1 "," (by simp [← String.toList_inj]) type (.inl rfl)
  have opens : Gives (indented 1 "np_vals = \x7b") ("np_vals", "\x7b") :=
    gives_indented 1 "" rfl table (.inr ⟨rfl, by decide⟩)
  have ranges : Gives (indented 2 ("spread = \x7b" ++ r.spread ++ "\x7d,"))
      ("spread", "\x7b" ++ r.spread ++ "\x7d") :=
    gives_indented 2 "," (by simp [← String.toList_inj]) spread (.inl rfl)
  have names : Gives (indented 2 ("flags = \"" ++ " ".intercalate r.settings.flags.names ++ "\""))
      ("flags", "\"" ++ " ".intercalate r.settings.flags.names ++ "\"") := by
    refine gives_indented 2 "" (by simp [← String.toList_inj]) flags (.inr ⟨rfl, ?_⟩)
    rw [String.toList_append, List.getLast?_append]
    exact (by decide : some '"' ≠ some ',')
  exact .cons dimension (.cons opens (.cons (gives_plain _ rfl offset)
    (.cons (gives_plain _ rfl scale) (.cons ranges (.cons (gives_plain _ rfl seed)
    (.cons (gives_plain _ rfl octaves) (.cons (gives_plain _ rfl persist)
    (.cons (gives_plain _ rfl lacunarity) (.cons names .nil)))))))))

theorem filterMap_given? {lines : List String} {entries : List (String × String)}
    (gives : List.Forall₂ Gives lines entries) {field : String} (asked : IsField field) :
    lines.filterMap (given? field) =
      entries.filterMap fun entry => if entry.1 = field then some entry.2 else none := by
  induction gives with
  | nil => rfl
  | cons first _ ih => rw [List.filterMap_cons, List.filterMap_cons, first field asked, ih]

/-- The lines around the table give none of its fields a value. -/
theorem given?_bracket (r : Registration) {field : String} (asked : field ∈ settingNames) :
    given? field r.head = none ∧ given? field (indented 1 "\x7d,") = none ∧
      given? field "\x7d)" = none := by
  have apart : ¬ (field ++ " = ").toList <+: "luamap.r".toList ∧
      ¬ "luamap.r".toList <+: (field ++ " = ").toList := by
    fin_cases asked <;> decide
  obtain ⟨rest, text⟩ := prefix_head r
  have begun : "luamap.r".toList <+: r.head.toList :=
    (by decide : "luamap.r".toList <+: "luamap.register_noise(\"".toList).trans (prefix_head r)
  have opens : begins (field ++ " = ") r.head = false :=
    Apart.begins_eq_false ⟨"luamap.r", begun, apart⟩ List.prefix_rfl
  have trimmed : r.head.toList.dropWhile (· == ' ') = r.head.toList := by
    rw [← text]
    rfl
  refine ⟨?_, ?_, ?_⟩
  · rw [given?, trimmed]
    exact if_neg (Bool.eq_false_iff.mp opens)
  · fin_cases asked <;> decide +kernel
  · fin_cases asked <;> decide +kernel

/-- A block has one value for each of its fields. -/
theorem filterMap_block (r : Registration) {field : String} (asked : field ∈ settingNames) :
    r.block.filterMap (given? field) =
      r.fields.filterMap fun entry => if entry.1 = field then some entry.2 else none := by
  have word : IsField field := by
    unfold IsField
    fin_cases asked <;> decide
  have split : r.block = r.head :: (r.rows ++ [indented 1 "\x7d,", "\x7d)"]) := rfl
  obtain ⟨opens, table, closes⟩ := given?_bracket r asked
  rw [split, List.filterMap_cons, opens, List.filterMap_append,
    filterMap_given? (gives_rows r) word]
  simp [table, closes]

theorem describes_block (r : Registration) :
    Describes r.block (noiseName r.node) r.dimension r.spread r.settings where
  opens := rfl
  type := filterMap_block r (by simp [settingNames])
  offset := filterMap_block r (by simp [settingNames])
  scale := filterMap_block r (by simp [settingNames])
  spread := filterMap_block r (by simp [settingNames])
  seed := filterMap_block r (by simp [settingNames])
  octaves := filterMap_block r (by simp [settingNames])
  persist := filterMap_block r (by simp [settingNames])
  lacunarity := filterMap_block r (by simp [settingNames])
  flags := filterMap_block r (by simp [settingNames])
  closes := rfl

/-- The block that a script has for a node registers the noise field of the node. -/
theorem registered_of_registration? {n : Node} {r : Registration}
    (found : registration? n = some r) : Registered n r.block := by
  unfold registration? at found
  unfold Registered
  generalize n.params = params at found ⊢
  cases params with
  | noise2d s =>
    cases found
    exact describes_block _
  | noise3d s =>
    cases found
    exact describes_block _
  | _ => cases found

theorem infix_block (r : Registration) : r.block <:+: r.lines :=
  (List.dropLast_prefix _).isInfix

end Landform.Script
