import Landform.Table
import Mathlib.Data.List.Induction
import Mathlib.Data.List.Nodup

/-!
# Ordered tables

Setting a value changes what its own name gives and nothing else, and it keeps the order of the
names: a name that is there stays in its place, a new one comes last. So the names of a table stay
different from each other.

1. `Table.get?_put`, `Table.get?_put_of_ne`: what the names give.
2. `Table.names_put_of_mem`, `Table.nodup_put`: the names.
3. `Table.Functional`: tables that name each value once.
4. `eraseDups_concat`, `nodup_eraseDups`: lists without their repetitions.
-/

namespace Landform.Table

variable {α : Type}

/-! ## 1. Values -/

theorem get?_cons (key : String) (value : α) (rest : Table α) (name : String) :
    get? ((key, value) :: rest) name = if key = name then some value else get? rest name := by
  unfold get?
  rw [List.find?_cons]
  by_cases same : key = name
  · simp [same]
  · have apart : (key == name) = false := by simpa using same
    simp [same, apart]

theorem get?_cons_self (key : String) (value : α) (rest : Table α) :
    get? ((key, value) :: rest) key = some value := by
  rw [get?_cons, if_pos rfl]

theorem get?_put (table : Table α) (name : String) (value : α) :
    (put table name value).get? name = some value := by
  induction table with
  | nil => simp [put, get?]
  | cons entry rest ih =>
    obtain ⟨key, old⟩ := entry
    rw [put]
    by_cases same : key = name
    · rw [if_pos (by simpa using same), get?_cons, if_pos same]
    · rw [if_neg (by simpa using same), get?_cons, if_neg same, ih]

theorem get?_put_of_ne (table : Table α) {name other : String} (value : α)
    (different : other ≠ name) : (put table name value).get? other = table.get? other := by
  induction table with
  | nil => simp [put, get?, different.symm]
  | cons entry rest ih =>
    obtain ⟨key, old⟩ := entry
    rw [put]
    by_cases same : key = name
    · have apart : key ≠ other := fun same' => different (same'.symm.trans same)
      rw [if_pos (by simpa using same), get?_cons, get?_cons, if_neg apart, if_neg apart]
    · rw [if_neg (by simpa using same), get?_cons, get?_cons, ih]

theorem get?_eq_none {table : Table α} {name : String} (absent : name ∉ table.names) :
    table.get? name = none := by
  rw [get?, Option.map_eq_none_iff, List.find?_eq_none]
  exact fun entry listed same => absent (eq_of_beq same ▸ List.mem_map_of_mem listed)

theorem get?_append_of_notMem {first : Table α} {name : String} (absent : name ∉ first.names)
    (second : Table α) : get? (first ++ second) name = get? second name := by
  have none := get?_eq_none absent
  rw [get?, Option.map_eq_none_iff] at none
  rw [get?, List.find?_append, none, Option.none_or, get?]

theorem get?_erase (table : Table α) (name : String) :
    (Table.erase table name).get? name = none :=
  get?_eq_none fun used => by simp [erase, names] at used

theorem get?_erase_of_ne (table : Table α) {name other : String} (different : other ≠ name) :
    (Table.erase table name).get? other = table.get? other := by
  induction table with
  | nil => rfl
  | cons entry rest ih =>
    obtain ⟨key, value⟩ := entry
    rw [erase, List.filter_cons, get?_cons, ← ih]
    by_cases same : key = name
    · rw [if_neg (by simpa using same), if_neg (same ▸ different.symm), erase]
    · rw [if_pos (by simpa using same), get?_cons, erase]

theorem mem_of_get? {table : Table α} {name : String} {a : α}
    (found : table.get? name = some a) : ∃ key, (key, a) ∈ table := by
  obtain ⟨⟨key, value⟩, hit, rfl⟩ := Option.map_eq_some_iff.mp found
  exact ⟨key, List.mem_of_find?_eq_some hit⟩

theorem mem_names_of_get? {table : Table α} {name : String} {a : α}
    (found : table.get? name = some a) : name ∈ table.names := by
  by_contra absent
  rw [get?_eq_none absent] at found
  cases found

/-! ## 2. Names -/

theorem put_of_notMem {table : Table α} {name : String} (fresh : name ∉ table.names) (value : α) :
    put table name value = table ++ [(name, value)] := by
  induction table with
  | nil => rfl
  | cons entry rest ih =>
    obtain ⟨other, rest_fresh⟩ := not_or.mp (List.mem_cons.not.mp fresh)
    rw [put, if_neg (by simpa using Ne.symm other), ih rest_fresh]
    rfl

theorem put_append_of_notMem {first : Table α} {name : String} (absent : name ∉ first.names)
    (second : Table α) (value : α) :
    put (first ++ second) name value = first ++ put second name value := by
  induction first with
  | nil => rfl
  | cons entry rest ih =>
    obtain ⟨other, later⟩ := not_or.mp (List.mem_cons.not.mp absent)
    rw [List.cons_append, put, if_neg (by simpa using Ne.symm other), ih later, List.cons_append]

theorem names_put_of_mem {table : Table α} {name : String} (used : name ∈ table.names)
    (value : α) : (put table name value).names = table.names := by
  induction table with
  | nil => exact absurd used List.not_mem_nil
  | cons entry rest ih =>
    rw [put]
    split
    · rfl
    · next other =>
      have later := (List.mem_cons.mp used).resolve_left fun same => other (by simp [same])
      exact congrArg (entry.1 :: ·) (ih later)

theorem nodup_put {table : Table α} (distinct : table.names.Nodup) (name : String) (value : α) :
    (put table name value).names.Nodup := by
  by_cases used : name ∈ table.names
  · rwa [names_put_of_mem used]
  · rw [put_of_notMem used, names, List.map_append]
    exact List.Nodup.append distinct (List.nodup_singleton name)
      (List.disjoint_singleton.mpr used)

theorem nodup_putAll {table : Table α} (distinct : table.names.Nodup) (updates : Table α) :
    (table.putAll updates).names.Nodup := by
  induction updates generalizing table with
  | nil => exact distinct
  | cons update rest ih => exact ih (nodup_put distinct update.1 update.2)

theorem putAll_of_nodup {table updates : Table α} (distinct : (table ++ updates).names.Nodup) :
    table.putAll updates = table ++ updates := by
  induction updates generalizing table with
  | nil => exact (List.append_nil table).symm
  | cons update rest ih =>
    have fresh : update.1 ∉ table.names := by
      rw [names, List.map_append] at distinct
      exact fun used => (List.nodup_append.mp distinct).2.2 _ used _ List.mem_cons_self rfl
    have next : table ++ [(update.1, update.2)] ++ rest = table ++ update :: rest := by simp
    rw [putAll, List.foldl_cons, put_of_notMem fresh, ← next]
    exact ih (next ▸ distinct)

/-! ## 3. Tables that name each value once -/

/-- A table names each value once. -/
def Functional (table : Table α) : Prop :=
  table.names.Nodup

theorem Functional.put {table : Table α} (functional : table.Functional) (name : String)
    (value : α) : (put table name value).Functional :=
  nodup_put functional name value

theorem Functional.erase {table : Table α} (functional : table.Functional) (name : String) :
    Functional (Table.erase table name) :=
  List.Nodup.sublist (List.filter_sublist.map _) functional

/-- In a table that names each value once, a name gives its value. -/
theorem Functional.get?_iff {table : Table α} (functional : table.Functional) {name : String}
    {value : α} : table.get? name = some value ↔ (name, value) ∈ table := by
  induction table with
  | nil => simp [get?]
  | cons entry rest ih =>
    obtain ⟨key, old⟩ := entry
    obtain ⟨fresh, others⟩ := List.nodup_cons.mp functional
    rw [get?_cons, List.mem_cons]
    split
    · next same =>
      subst same
      constructor
      · rintro ⟨⟩
        exact .inl rfl
      · rintro (this | listed)
        · rw [(Prod.mk.inj this).2]
        · exact absurd (List.mem_map_of_mem (f := (·.1)) listed) fresh
    · next different =>
      rw [ih others]
      constructor
      · exact .inr
      · rintro (this | listed)
        · exact absurd (Prod.mk.inj this).1.symm different
        · exact listed

end Landform.Table

namespace Landform

/-! ## 4. Lists without their repetitions -/

variable {α : Type} [BEq α] [LawfulBEq α]

theorem eraseDups_concat (items : List α) (a : α)
    [Decidable (a ∈ items)] :
    (items ++ [a]).eraseDups = if a ∈ items then items.eraseDups else items.eraseDups ++ [a] := by
  rw [List.eraseDups_append]
  split
  · next known => simp [List.removeAll, known]
  · next fresh => simp [List.removeAll, fresh, List.eraseDups_cons]

theorem nodup_eraseDups (items : List α) : items.eraseDups.Nodup := by
  induction items using List.reverseRecOn with
  | nil => exact List.nodup_nil
  | append_singleton items a ih =>
    rw [eraseDups_concat]
    split
    · exact ih
    · next fresh =>
      exact List.Nodup.append ih (List.nodup_singleton a)
        (List.disjoint_singleton.mpr (mt List.mem_eraseDups.mp fresh))

end Landform
