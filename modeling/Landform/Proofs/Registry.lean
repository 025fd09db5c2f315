import Landform.Registry
import Landform.Proofs.Table
import Mathlib

/-!
# The map behind a registry

A registry keeps two tables, the entries and the instances made of them, and yet it answers as one
map from names to entries. A registration changes the entry of the name without the blanks around it
and drops the instance of that name, so that every instance that is kept is one of the entry that
the map has. Serial numbers only grow; so an instance that is made after a registration differs from
all those before it.

1. `Call`, `Registry.answer`, `latest`: what is asked, what is answered, and the map.
2. `Coherent`, `coherent_after`: the tables agree with the map after any calls.
3. `kept_run`, `renewed_run`: an instance is kept up to the next registration of its name.
4. `Mirrors`, `after_mirrors_latest`: what callers see.
-/

namespace Landform.Registry

open Text

/-! ## 1. Calls -/

/-- What can be asked of a registry. -/
inductive Call (α : Type) where
  | register (name : String) (entry : α)
  | get (name : String)
  | contains (name : String)
  | names

/-- What a registry answers. -/
inductive Reply (α : Type) where
  | registered
  | found (i : Instance α)
  | holds (answer : Bool)
  | listed (names : List String)
  | failed (cause : Error)

/-- Whether a call gives a name a new entry. -/
def Call.Registers {α : Type} (name : String) : Call α → Prop
  | register given _ => trim given = name ∧ name ≠ ""
  | _ => False

variable {α : Type}

/-- The registry after a call, and the answer. -/
def answer (r : Registry α) : Call α → Registry α × Reply α
  | .register name entry =>
    match r.register name entry with
    | .ok r' => (r', .registered)
    | .error cause => (r, .failed cause)
  | .get name =>
    match r.get name with
    | .ok (i, r') => (r', .found i)
    | .error cause => (r, .failed cause)
  | .contains name => (r, .holds (r.contains name))
  | .names => (r, .listed r.names)

/-- A registry after calls. -/
def run (r : Registry α) (calls : List (Call α)) : Registry α :=
  calls.foldl (fun r call => (r.answer call).1) r

/-- The registry that calls make of an empty one. -/
def after (calls : List (Call α)) : Registry α :=
  empty.run calls

/-- The map after a call: a registration under a name that is not blank sets the entry of the name
without the blanks around it. -/
def assign (map : String → Option α) : Call α → String → Option α
  | .register name entry => if trim name = "" then map else Function.update map (trim name) entry
  | _ => map

/-- The map from each name to the entry that was registered last. -/
def latest (calls : List (Call α)) : String → Option α :=
  calls.foldl assign fun _ => none

/-! ## 2. The tables and the map -/

/-- The tables of a registry agree with a map: the entries are those of the map, and each instance
that is kept is one of them, made before. -/
structure Coherent (r : Registry α) (map : String → Option α) : Prop where
  entries_eq : ∀ name, r.entries.get? name = map name
  functional : r.entries.Functional
  kept : ∀ name i, r.instances.get? name = some i →
    i.name = name ∧ map name = some i.entry ∧ i.serial < r.made

variable {r : Registry α} {map : String → Option α} {name : String} {i : Instance α}

theorem register_blank (r : Registry α) (blank : trim name = "") (entry : α) :
    r.register name entry = .error .blankKind := by
  rw [register, blank]
  rfl

theorem register_eq (r : Registry α) (filled : trim name ≠ "") (entry : α) :
    r.register name entry = .ok { r with
      entries := r.entries.put (trim name) entry
      instances := r.instances.erase (trim name) } := by
  rw [register]
  simp [filled]

theorem answer_register (r : Registry α) (filled : trim name ≠ "") (entry : α) :
    r.answer (.register name entry) = ({ r with
      entries := r.entries.put (trim name) entry
      instances := r.instances.erase (trim name) }, .registered) := by
  rw [answer, register_eq r filled]

/-- A look-up gives the instance that is kept, or makes one of the entry, or fails. -/
theorem get_cases (r : Registry α) (name : String) :
    (∃ i, r.instances.get? name = some i ∧ r.get name = .ok (i, r)) ∨
    (∃ entry, r.instances.get? name = none ∧ r.entries.get? name = some entry ∧
      r.get name = .ok (⟨name, entry, r.made⟩,
        { r with instances := r.instances.put name ⟨name, entry, r.made⟩, made := r.made + 1 })) ∨
    (r.instances.get? name = none ∧ r.entries.get? name = none ∧
      r.get name = .error (r.unknown name)) := by
  rw [get]
  cases r.instances.get? name with
  | some i => exact .inl ⟨i, rfl, rfl⟩
  | none =>
    cases r.entries.get? name with
    | some entry => exact .inr (.inl ⟨entry, rfl, rfl, rfl⟩)
    | none => exact .inr (.inr ⟨rfl, rfl, rfl⟩)

theorem coherent_empty : Coherent (empty : Registry α) fun _ => none where
  entries_eq _ := rfl
  functional := List.nodup_nil
  kept _ _ found := by cases found

theorem Coherent.register (coherent : Coherent r map) (name : String) (entry : α) :
    Coherent (r.answer (.register name entry)).1 (assign map (.register name entry)) := by
  by_cases blank : trim name = ""
  · rw [answer, register_blank r blank, assign, if_pos blank]
    exact coherent
  · rw [answer_register r blank, assign, if_neg blank]
    constructor
    · intro other
      by_cases same : other = trim name
      · rw [same, Table.get?_put, Function.update_self]
      · rw [Table.get?_put_of_ne _ _ same, Function.update_of_ne same, coherent.entries_eq]
    · exact coherent.functional.put _ _
    · intro other i kept
      -- the instance of the registered name is gone, and no other name is concerned
      have different : other ≠ trim name := by
        rintro rfl
        rw [Table.get?_erase] at kept
        cases kept
      rw [Table.get?_erase_of_ne _ different] at kept
      rw [Function.update_of_ne different]
      exact coherent.kept other i kept

theorem Coherent.get (coherent : Coherent r map) (name : String) :
    Coherent (r.answer (.get name)).1 map := by
  rcases r.get_cases name with ⟨i, _, done⟩ | ⟨entry, _, given, done⟩ | ⟨_, _, done⟩ <;>
    rw [answer, done]
  · exact coherent
  · refine ⟨coherent.entries_eq, coherent.functional, fun other i kept => ?_⟩
    by_cases same : other = name
    · subst same
      rw [Table.get?_put] at kept
      cases kept
      exact ⟨rfl, coherent.entries_eq other ▸ given, Nat.lt_succ_self _⟩
    · rw [Table.get?_put_of_ne _ _ same] at kept
      obtain ⟨named, current, made⟩ := coherent.kept other i kept
      exact ⟨named, current, Nat.lt_succ_of_lt made⟩
  · exact coherent

/-- Every call keeps the tables and the map in agreement. -/
theorem Coherent.answer (coherent : Coherent r map) (call : Call α) :
    Coherent (r.answer call).1 (assign map call) := by
  cases call with
  | register name entry => exact coherent.register name entry
  | get name => exact coherent.get name
  | contains name => exact coherent
  | names => exact coherent

theorem Coherent.run (coherent : Coherent r map) (calls : List (Call α)) :
    Coherent (r.run calls) (calls.foldl assign map) := by
  induction calls generalizing r map with
  | nil => exact coherent
  | cons call rest ih => exact ih (coherent.answer call)

theorem coherent_after (calls : List (Call α)) : Coherent (after calls) (latest calls) :=
  coherent_empty.run calls

/-! ## 3. Instances between registrations -/

theorem kept_answer {call : Call α} (kept : r.instances.get? name = some i)
    (other : ¬ call.Registers name) : (r.answer call).1.instances.get? name = some i := by
  cases call with
  | register given entry =>
    by_cases blank : trim given = ""
    · rw [answer, register_blank r blank]
      exact kept
    · have different : name ≠ trim given := fun same => other ⟨same.symm, same ▸ blank⟩
      rw [answer_register r blank]
      exact (Table.get?_erase_of_ne _ different).trans kept
  | get given =>
    rcases r.get_cases given with ⟨i, _, done⟩ | ⟨entry, unused, _, done⟩ | ⟨_, _, done⟩ <;>
      rw [answer, done]
    · exact kept
    · have different : name ≠ given := by
        rintro rfl
        rw [kept] at unused
        cases unused
      exact (Table.get?_put_of_ne _ _ different).trans kept
    · exact kept
  | contains given => exact kept
  | names => exact kept

/-- An instance is kept as long as its name is not registered. -/
theorem kept_run {calls : List (Call α)} (kept : r.instances.get? name = some i)
    (others : ∀ call ∈ calls, ¬ call.Registers name) :
    (r.run calls).instances.get? name = some i := by
  induction calls generalizing r with
  | nil => exact kept
  | cons call rest ih =>
    obtain ⟨other, later⟩ := List.forall_mem_cons.mp others
    exact ih (kept_answer kept other) later

/-- An instance with a serial number is out of use: the number is taken, and what is kept under the
name has a greater one. -/
structure Renewed (name : String) (serial : Nat) (r : Registry α) : Prop where
  taken : serial < r.made
  newer : ∀ i, r.instances.get? name = some i → serial < i.serial

theorem made_le_answer (r : Registry α) (call : Call α) : r.made ≤ (r.answer call).1.made := by
  cases call with
  | register given entry =>
    by_cases blank : trim given = ""
    · rw [answer, register_blank r blank]
    · rw [answer_register r blank]
  | get given =>
    rcases r.get_cases given with ⟨i, _, done⟩ | ⟨entry, _, _, done⟩ | ⟨_, _, done⟩ <;>
      rw [answer, done]
    exact Nat.le_succ _
  | contains given => exact le_rfl
  | names => exact le_rfl

/-- A registration puts every instance of the name out of use. -/
theorem renewed_of_registers {serial : Nat} {call : Call α} (taken : serial < r.made)
    (registers : call.Registers name) : Renewed name serial (r.answer call).1 := by
  refine ⟨taken.trans_le (made_le_answer r call), fun i kept => ?_⟩
  cases call with
  | register given entry =>
    obtain ⟨rfl, filled⟩ := registers
    rw [answer_register r filled] at kept
    exact absurd kept (by simp [Table.get?_erase])
  | get | contains | names => exact registers.elim

theorem Renewed.answer {serial : Nat} (renewed : Renewed name serial r) (call : Call α) :
    Renewed name serial (r.answer call).1 := by
  by_cases registers : call.Registers name
  · exact renewed_of_registers renewed.taken registers
  refine ⟨renewed.taken.trans_le (made_le_answer r call), fun i kept => ?_⟩
  cases before : r.instances.get? name with
  | some old =>
    rw [kept_answer before registers] at kept
    cases kept
    exact renewed.newer _ before
  | none =>
    cases call with
    | register given entry =>
      by_cases blank : trim given = ""
      · rw [Registry.answer, register_blank r blank] at kept
        exact renewed.newer i kept
      · have different : name ≠ trim given := fun same => registers ⟨same.symm, same ▸ blank⟩
        rw [answer_register r blank] at kept
        exact renewed.newer i ((Table.get?_erase_of_ne _ different).symm.trans kept)
    | get given =>
      rcases r.get_cases given with ⟨j, _, done⟩ | ⟨entry, _, _, done⟩ | ⟨_, _, done⟩ <;>
        rw [Registry.answer, done] at kept
      · exact renewed.newer i kept
      · by_cases same : name = given
        · subst same
          rw [Table.get?_put] at kept
          cases kept
          exact renewed.taken
        · exact renewed.newer i ((Table.get?_put_of_ne _ _ same).symm.trans kept)
      · exact renewed.newer i kept
    | contains given => exact renewed.newer i kept
    | names => exact renewed.newer i kept

theorem Renewed.run {serial : Nat} (renewed : Renewed name serial r) (calls : List (Call α)) :
    Renewed name serial (r.run calls) := by
  induction calls generalizing r with
  | nil => exact renewed
  | cons call rest ih => exact ih (renewed.answer call)

/-- After a registration among calls, an instance from before them is out of use. -/
theorem renewed_run {serial : Nat} {calls : List (Call α)} (taken : serial < r.made)
    (registered : ∃ call ∈ calls, call.Registers name) : Renewed name serial (r.run calls) := by
  induction calls generalizing r with
  | nil =>
    obtain ⟨call, listed, _⟩ := registered
    exact absurd listed List.not_mem_nil
  | cons call rest ih =>
    by_cases first : call.Registers name
    · exact (renewed_of_registers taken first).run rest
    · obtain ⟨found, listed, registers⟩ := registered
      rcases List.mem_cons.mp listed with rfl | later
      · exact absurd registers first
      · exact ih (taken.trans_le (made_le_answer r call)) ⟨found, later, registers⟩

theorem Renewed.serial_lt {serial : Nat} {r' : Registry α} (renewed : Renewed name serial r)
    (found : r.get name = .ok (i, r')) : serial < i.serial := by
  rcases r.get_cases name with ⟨j, kept, done⟩ | ⟨entry, _, _, done⟩ | ⟨_, _, done⟩ <;>
    rw [done] at found <;> cases found
  · exact renewed.newer i kept
  · exact renewed.taken

/-! ## 4. What callers see -/

/-- A registry answers as a map from names to entries. -/
structure Mirrors (r : Registry α) (map : String → Option α) : Prop where
  /-- A name of the map gives an instance of its entry and under its name. -/
  found : ∀ name entry, map name = some entry →
    ∃ i r', r.get name = .ok (i, r') ∧ i.name = name ∧ i.entry = entry
  /-- Exactly the names that are not in the map give a failure, and it is one of a missing key. -/
  missing : ∀ name, map name = none ↔
    ∃ cause, r.get name = .error cause ∧ cause.family = .missingKey
  contains_iff : ∀ name, r.contains name = true ↔ ∃ i r', r.get name = .ok (i, r')
  names_sorted : r.names.Pairwise (· < ·)
  mem_names : ∀ name, name ∈ r.names ↔ (map name).isSome
  /-- Registering under a blank name fails and has no effect. -/
  blank : ∀ name entry, trim name = "" →
    r.answer (.register name entry) = (r, .failed .blankKind) ∧
      Error.blankKind.family = .badValue
  registered : ∀ name entry, trim name ≠ "" → (r.answer (.register name entry)).2 = .registered

theorem Coherent.get_eq_ok_iff (coherent : Coherent r map) :
    (∃ i r', r.get name = .ok (i, r')) ↔ (map name).isSome := by
  rcases r.get_cases name with ⟨i, kept, done⟩ | ⟨entry, _, given, done⟩ | ⟨_, absent, done⟩
  · simp [done, (coherent.kept name i kept).2.1]
  · simp [done, ← coherent.entries_eq, given]
  · simp [done, ← coherent.entries_eq, absent]

/-- A look-up gives an instance of the entry that the map has, under the name that was looked up,
and the registry keeps it. -/
theorem Coherent.of_get {r' : Registry α} (coherent : Coherent r map)
    (found : r.get name = .ok (i, r')) :
    i.name = name ∧ map name = some i.entry ∧ r'.instances.get? name = some i ∧
      i.serial < r'.made := by
  rcases r.get_cases name with ⟨j, kept, done⟩ | ⟨entry, _, given, done⟩ | ⟨_, _, done⟩ <;>
    rw [done] at found <;> cases found
  · obtain ⟨named, current, made⟩ := coherent.kept name i kept
    exact ⟨named, current, kept, made⟩
  · exact ⟨rfl, coherent.entries_eq name ▸ given, Table.get?_put _ _ _, Nat.lt_succ_self _⟩

theorem mem_names_iff (coherent : Coherent r map) : name ∈ r.names ↔ (map name).isSome := by
  rw [names, List.mem_mergeSort, ← coherent.entries_eq, Option.isSome_iff_exists]
  constructor
  · intro listed
    obtain ⟨⟨key, entry⟩, found, rfl⟩ := List.mem_map.mp listed
    exact ⟨entry, coherent.functional.get?_iff.mpr found⟩
  · rintro ⟨entry, found⟩
    exact Table.mem_names_of_get? found

theorem names_strictly_sorted (functional : r.entries.Functional) :
    r.names.Pairwise (· < ·) := by
  have sorted : r.names.Pairwise (· ≤ ·) := List.pairwise_mergeSort' (· ≤ ·) r.entries.names
  have distinct : r.names.Nodup := (List.mergeSort_perm _ _).nodup_iff.mpr functional
  exact (sorted.and distinct).imp fun ⟨le, ne⟩ => lt_of_le_of_ne le ne

theorem Coherent.mirrors (coherent : Coherent r map) : r.Mirrors map where
  found name entry given := by
    obtain ⟨i, r', done⟩ := coherent.get_eq_ok_iff.mpr (Option.isSome_iff_exists.mpr ⟨entry, given⟩)
    obtain ⟨named, current, _⟩ := coherent.of_get done
    exact ⟨i, r', done, named, Option.some.inj (current.symm.trans given)⟩
  missing name := by
    rcases r.get_cases name with ⟨i, kept, done⟩ | ⟨entry, _, given, done⟩ | ⟨_, absent, done⟩
    · simp [done, (coherent.kept name i kept).2.1]
    · simp [done, ← coherent.entries_eq, given]
    · simp [done, ← coherent.entries_eq, absent, unknown, Error.family]
  contains_iff name := by
    rw [coherent.get_eq_ok_iff, contains, coherent.entries_eq]
  names_sorted := names_strictly_sorted coherent.functional
  mem_names _ := mem_names_iff coherent
  blank name entry blank := by
    rw [Registry.answer, register_blank r blank]
    exact ⟨rfl, rfl⟩
  registered name entry filled := by rw [answer_register r filled]

theorem run_append (r : Registry α) (first second : List (Call α)) :
    r.run (first ++ second) = (r.run first).run second :=
  List.foldl_append

/-- After any calls a registry answers as the map from each name to the entry that was registered
last, and two look-ups of a name give the same instance exactly if the name was not registered
between them. -/
theorem after_mirrors_latest (past : List (Call α)) :
    (after past).Mirrors (latest past) ∧
      ∀ name i r', (after past).get name = .ok (i, r') →
        ∀ between j r'', (after (past ++ .get name :: between)).get name = .ok (j, r'') →
          (j = i ↔ ∀ call ∈ between, ¬ call.Registers name) := by
  have coherent := coherent_after past
  refine ⟨coherent.mirrors, fun name i r' found between j r'' again => ?_⟩
  obtain ⟨_, _, kept, taken⟩ := coherent.of_get found
  have later : after (past ++ .get name :: between) = r'.run between := by
    rw [after, run_append, run, List.foldl_cons]
    show run ((after past).answer (.get name)).1 between = _
    rw [answer, found]
  rw [later] at again
  constructor
  · rintro rfl call listed registers
    exact lt_irrefl _ ((renewed_run taken ⟨call, listed, registers⟩).serial_lt again)
  · intro others
    rcases (r'.run between).get_cases name with
      ⟨k, found', done⟩ | ⟨_, unused, _⟩ | ⟨unused, _⟩
    · rw [kept_run kept others] at found'
      cases found'
      rw [done] at again
      cases again
      rfl
    · rw [kept_run kept others] at unused
      cases unused
    · rw [kept_run kept others] at unused
      cases unused

/-- Calls that register a name twice, with a look-up between, and a blank name. -/
def dunes : List (Call String) :=
  [.register " sand " "dune", .get "sand", .register " \t" "void", .register "sand" "desert"]

theorem dunes_mirrored : ∃ i r' j r'' k r''',
    (after dunes).get "sand" = .ok (i, r') ∧ i.entry = "desert" ∧
    (after (dunes ++ .get "sand" :: [.contains "sand", .register "mud" "swamp", .names])).get "sand" =
      .ok (j, r'') ∧ j = i ∧
    (after (dunes ++ .get "sand" :: [.register "sand " "desert"])).get "sand" = .ok (k, r''') ∧
    k ≠ i := by
  obtain ⟨mirrors, same⟩ := after_mirrors_latest dunes
  obtain ⟨i, r', found, -, entry⟩ := mirrors.found "sand" "desert" (by decide +kernel)
  obtain ⟨j, r'', kept, -⟩ := (after_mirrors_latest (dunes ++ .get "sand" ::
    [.contains "sand", .register "mud" "swamp", .names])).1.found "sand" "desert" (by decide +kernel)
  obtain ⟨k, r''', renewed, -⟩ := (after_mirrors_latest (dunes ++ .get "sand" ::
    [.register "sand " "desert"])).1.found "sand" "desert" (by decide +kernel)
  refine ⟨i, r', j, r'', k, r''', found, entry, kept, ?_, renewed, ?_⟩
  · exact (same "sand" i r' found _ j r'' kept).mpr (by simp [Call.Registers]; decide +kernel)
  · intro this
    have others := (same "sand" i r' found _ k r''' renewed).mp this
    exact others _ List.mem_cons_self ⟨by decide +kernel, by decide⟩

end Landform.Registry
