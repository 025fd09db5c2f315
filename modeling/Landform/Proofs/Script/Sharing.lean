import Landform.Proofs.Script.Declared

/-!
# Which names share a line

A script fetches the content of a name for a local. The nodes of one name share the plain local of
the name as long as no other name got it first. If one did, each of the nodes appends its own id, so
that none of them meets the local of another: the name is fetched once for every node that has it.
The names of water and of stone are fetched for locals of their own besides.

1. `Locals.claims_get?_iff`, `Locals.claim_cases`: what claims declare, and for which locals.
2. `local_cases`: the local of a terrain node.
3. `get?_eq_some_iff_mem_localsFor`: all locals of a name.
4. `countP_fetches`: the lines that fetch a name.
5. `Graph.sharing_ofGraph`: how many lines a name has, and which nodes share a local.
-/

namespace Landform

namespace Script

open Lua Decimal

/-! ## 1. Claims -/

namespace Locals

theorem get?_claim_of_ne {declared : Locals} {w : Wish} {slot : String}
    (different : slot ≠ (declared.claim w.slot w.name w.suffix).slot) :
    (declared.claim w.slot w.name w.suffix).declared.get? slot = declared.get? slot := by
  rw [slot_claim] at different
  rw [claim]
  split
  · rfl
  · exact Table.get?_put_of_ne _ _ different

/-- A local stands for a name if it did before, or if it is what a wish for the name was granted. -/
theorem claims_get?_iff {declared : Locals} {wishes : List Wish}
    (more : ∀ w ∈ wishes, w.suffix.length ≠ 0) {slot name : String} :
    (declared.claims wishes).get? slot = some name ↔ declared.get? slot = some name ∨
      ∃ before w after, wishes = before ++ w :: after ∧ w.name = name ∧
        ((declared.claims before).claim w.slot w.name w.suffix).slot = slot := by
  constructor
  · intro found
    induction wishes using List.reverseRecOn with
    | nil => exact .inl found
    | append_singleton wishes w ih =>
      obtain ⟨earlier, last⟩ := List.forall_mem_append.mp more
      rw [claims_append] at found
      by_cases same : slot = ((declared.claims wishes).claim w.slot w.name w.suffix).slot
      · have granted := get?_claim (declared.claims wishes) w.slot w.name w.suffix
          (last w (List.mem_singleton_self w))
        rw [← same] at granted
        exact .inr ⟨wishes, w, [], rfl, Option.some.inj (granted.symm.trans found), same.symm⟩
      · refine (ih earlier ((get?_claim_of_ne same).symm.trans found)).imp_right ?_
        rintro ⟨before, v, after, rfl, named, granted⟩
        exact ⟨before, v, after ++ [w], by simp, named, granted⟩
  · rintro (found | ⟨before, w, after, rfl, rfl, rfl⟩)
    · exact (extends_claims declared wishes).kept _ _ found
    · rw [claims_append]
      refine (extends_claims _ after).kept _ _ (get?_claim _ _ _ _ (more w ?_))
      exact List.mem_append_right _ List.mem_cons_self

theorem attempt_succ (slot suffix : String) (k : Nat) :
    attempt slot suffix (k + 1) = attempt slot suffix k ++ suffix := by
  induction k generalizing slot with
  | zero => rfl
  | succ k ih => exact ih (slot ++ suffix)

theorem prefix_attempt (slot suffix : String) (k : Nat) :
    slot.toList <+: (attempt slot suffix k).toList := by
  induction k with
  | zero => exact List.prefix_rfl
  | succ k ih =>
    rw [attempt_succ, String.toList_append]
    exact ih.trans (List.prefix_append _ _)

/-- The last id that was appended can be told from a local. -/
theorem attempt_id_injective {slot other : String} {m n : Int} {j k : Nat}
    (same : attempt slot ("_" ++ integerText m) (j + 1) =
      attempt other ("_" ++ integerText n) (k + 1)) : m = n := by
  have lists := congrArg (List.reverse ∘ String.toList) same
  simp only [attempt_succ, Function.comp_apply, String.toList_append, List.reverse_append,
    List.append_assoc] at lists
  have fresh (i : Int) : '_' ∉ (integerText i).toList.reverse := by
    simpa using underscore_notMem_integerText i
  have digits := (append_cons_inj (fresh m) (fresh n) lists).1
  exact integerText_injective (String.toList_inj.mp (List.reverse_injective digits))

/-- A claim is granted the plain local with nothing or something behind it. -/
theorem prefix_claim (declared : Locals) (w : Wish) (more : w.suffix.length ≠ 0) :
    w.slot.toList <+: (declared.claim w.slot w.name w.suffix).slot.toList := by
  obtain ⟨k, _, granted, _⟩ := (declared.claim_settles w more).attempts
  rw [granted]
  exact prefix_attempt _ _ k

/-- A claim is granted the plain local if this stands for the name in the end. Otherwise the plain
local stands for another name, and a suffix is appended. -/
theorem claim_cases (declared : Locals) (w : Wish) (more : w.suffix.length ≠ 0) {later : Locals}
    (extends' : later.Extends (declared.claim w.slot w.name w.suffix).declared) :
    (later.get? w.slot = some w.name ∧
      (declared.claim w.slot w.name w.suffix).slot = w.slot) ∨
    (∃ other ≠ w.name, later.get? w.slot = some other) ∧
      ∃ k, (declared.claim w.slot w.name w.suffix).slot = attempt w.slot w.suffix (k + 1) := by
  obtain ⟨k, _, granted, others⟩ := (declared.claim_settles w more).attempts
  cases k with
  | zero =>
    have named := extends'.kept _ _ (get?_claim declared w.slot w.name w.suffix more)
    rw [granted] at named
    exact .inl ⟨named, granted⟩
  | succ k =>
    obtain ⟨other, found, different⟩ := others 0 (Nat.succ_pos k)
    have kept := (declared.extends_claim w.slot w.name w.suffix).kept _ _ found
    exact .inr ⟨⟨other, different, extends'.kept _ _ kept⟩, k, granted⟩

end Locals

/-! ## 2. The locals of terrain nodes -/

/-- The name of the terrain of a node. -/
def terrainName? (n : Node) : Option String :=
  match n.params with
  | .terrainType t => some t.name
  | _ => none

theorem terrainName?_eq_some {n : Node} {name : String} :
    terrainName? n = some name ↔ ∃ t, n.params = .terrainType t ∧ t.name = name := by
  unfold terrainName?
  cases n.params <;> simp

theorem terrainWish?_eq (n : Node) : terrainWish? n =
    (terrainName? n).map fun name => ⟨contentLocal name, name, "_" ++ integerText n.id⟩ := by
  unfold terrainWish? terrainName?
  cases n.params <;> rfl

/-- The wish of a node stands between those of the nodes before it and behind it. -/
theorem filterMap_terrainWish? (before after : List Node) {n : Node} {name : String}
    (named : terrainName? n = some name) : (before ++ n :: after).filterMap terrainWish? =
      before.filterMap terrainWish? ++
        ⟨contentLocal name, name, "_" ++ integerText n.id⟩ :: after.filterMap terrainWish? := by
  rw [List.filterMap_append, List.filterMap_cons, terrainWish?_eq n, named]
  rfl

/-- The locals that are declared once some nodes have claimed theirs. -/
def declaredBy (nodes : List Node) : Locals :=
  builtIn.claims (nodes.filterMap terrainWish?)

/-- What is claimed for a node of a name when others have claimed their locals before it. -/
def claimOf (before : List Node) (n : Node) (name : String) : Locals.Claim :=
  (declaredBy before).claim (contentLocal name) name ("_" ++ integerText n.id)

theorem contentsOf_eq_claimOf {g : Graph} (distinct : g.ids.Nodup) {before after : List Node}
    {n : Node} (split : g.nodes = before ++ n :: after) {name : String}
    (named : terrainName? n = some name) :
    contentsOf (assignment g).slots n = (claimOf before n name).slot := by
  obtain ⟨t, params, rfl⟩ := terrainName?_eq_some.mp named
  rw [Graph.ids, split] at distinct
  have assigned : (assignment g).slots.find? (·.1 == n.id) =
      some (n.id, (claimOf before n t.name).slot) := by
    rw [assignment, split, List.foldl_append, List.foldl_cons]
    refine (Assignment.extends_foldl _ after).slots _ _ ?_
    rw [Assignment.addNode, params]
    dsimp only
    rw [List.find?_append, find?_slots_foldl distinct, declared_foldl]
    simp [claimOf, declaredBy]
  rw [contentsOf, assigned]

theorem declaredBy_get?_iff {nodes : List Node} {slot name : String} :
    (declaredBy nodes).get? slot = some name ↔ builtIn.get? slot = some name ∨
      ∃ before n after, nodes = before ++ n :: after ∧ terrainName? n = some name ∧
        (claimOf before n name).slot = slot := by
  have more : ∀ w ∈ nodes.filterMap terrainWish?, w.suffix.length ≠ 0 := by
    intro w listed
    obtain ⟨n, _, wished⟩ := List.mem_filterMap.mp listed
    rw [terrainWish?_eq] at wished
    obtain ⟨name, _, rfl⟩ := Option.map_eq_some_iff.mp wished
    simp
  rw [declaredBy, Locals.claims_get?_iff more]
  refine or_congr_right ?_
  constructor
  · rintro ⟨before, w, after, split, rfl, granted⟩
    obtain ⟨first, rest, rfl, rfl, others⟩ := List.filterMap_eq_append_iff.mp split
    obtain ⟨skipped, n, last, rfl, none, wished, rfl⟩ := List.filterMap_eq_cons_iff.mp others
    rw [terrainWish?_eq] at wished
    obtain ⟨name, named, rfl⟩ := Option.map_eq_some_iff.mp wished
    refine ⟨first ++ skipped, n, last, by simp, named, ?_⟩
    rw [claimOf, declaredBy, List.filterMap_append, List.filterMap_eq_nil_iff.mpr none,
      List.append_nil]
    exact granted
  · rintro ⟨before, n, after, rfl, named, granted⟩
    exact ⟨_, _, _, filterMap_terrainWish? before after named, rfl, granted⟩

section Script

variable {g : Graph} (distinct : g.ids.Nodup) {options : Options} {script : Script}
  (made : ofGraph g options = .ok script)

include made

theorem contents_eq_claims :
    script.contents = (declaredBy g.nodes).claims (stoneWishes g) := by
  rw [(contents_eq made).1, wishes, Locals.claims_append, Locals.claims_append, builtIn_eq,
    declaredBy]

theorem contents_extends {before after : List Node} {n : Node}
    (split : g.nodes = before ++ n :: after) {name : String} (named : terrainName? n = some name) :
    Locals.Extends script.contents (claimOf before n name).declared := by
  rw [contents_eq_claims made, declaredBy, split, filterMap_terrainWish? before after named,
    Locals.claims_append]
  exact (Locals.extends_claims _ _).trans (Locals.extends_claims _ _)

include distinct

/-- A terrain node has the plain local of its name if this stands for the name. Otherwise this
stands for another name, and the node has a local that ends with its id. -/
theorem local_cases {n : Node} (member : n ∈ g.nodes) {name : String}
    (named : terrainName? n = some name) :
    (Table.get? script.contents (contentLocal name) = some name ∧
      contentsOf (assignment g).slots n = contentLocal name) ∨
    (∃ other ≠ name, Table.get? script.contents (contentLocal name) = some other) ∧
      ∃ k, contentsOf (assignment g).slots n =
        Locals.attempt (contentLocal name) ("_" ++ integerText n.id) (k + 1) := by
  obtain ⟨before, after, split⟩ := List.append_of_mem member
  rw [contentsOf_eq_claimOf distinct split named]
  exact Locals.claim_cases (declaredBy before)
    ⟨contentLocal name, name, "_" ++ integerText n.id⟩ (by simp) (contents_extends made split named)

theorem local_of_owned {n : Node} (member : n ∈ g.nodes) {name : String}
    (named : terrainName? n = some name)
    (owned : Table.get? script.contents (contentLocal name) = some name) :
    contentsOf (assignment g).slots n = contentLocal name := by
  rcases local_cases distinct made member named with ⟨_, plain⟩ | ⟨⟨other, different, found⟩, _⟩
  · exact plain
  · exact absurd (Option.some.inj (found.symm.trans owned)) different

theorem local_of_not_owned {n : Node} (member : n ∈ g.nodes) {name : String}
    (named : terrainName? n = some name)
    (free : Table.get? script.contents (contentLocal name) ≠ some name) :
    ∃ k, contentsOf (assignment g).slots n =
      Locals.attempt (contentLocal name) ("_" ++ integerText n.id) (k + 1) := by
  rcases local_cases distinct made member named with ⟨owned, _⟩ | ⟨_, long⟩
  · exact absurd owned free
  · exact long

/-- Nodes of one name share a local only if it is the plain one. -/
theorem local_eq_iff {m n : Node} (mm : m ∈ g.nodes) (mn : n ∈ g.nodes) {name : String}
    (first : terrainName? m = some name) (second : terrainName? n = some name) :
    contentsOf (assignment g).slots m = contentsOf (assignment g).slots n ↔
      m = n ∨ Table.get? script.contents (contentLocal name) = some name := by
  by_cases owned : Table.get? script.contents (contentLocal name) = some name
  · rw [local_of_owned distinct made mm first owned, local_of_owned distinct made mn second owned]
    exact iff_of_true rfl (.inr owned)
  · obtain ⟨j, long⟩ := local_of_not_owned distinct made mm first owned
    obtain ⟨k, long'⟩ := local_of_not_owned distinct made mn second owned
    rw [or_iff_left owned, long, long']
    refine ⟨fun same => node_eq_of_id distinct mm mn (Locals.attempt_id_injective same), ?_⟩
    rintro rfl
    exact long.symm.trans long'

end Script

/-! ## 3. All locals of a name -/

/-- The local of the stone that a body puts below a height. -/
def Body.stone? : Body → Option String
  | .height _ stone => some stone
  | _ => none

theorem builtIn_get?_eq_some {slot name : String} (found : builtIn.get? slot = some name) :
    slot = "c_air" ∧ name = "air" ∨ slot = "c_water" ∧ name = "default:water_source" := by
  rw [builtIn, Table.get?_cons, Table.get?_cons] at found
  split at found
  · next same => exact .inl ⟨same.symm, (Option.some.inj found).symm⟩
  · split at found
    · next same => exact .inr ⟨same.symm, (Option.some.inj found).symm⟩
    · cases found

theorem contentLocal_air : contentLocal "air" = "c_air" := by decide +kernel

theorem Body.stone?_eq_some {body : Body} {stone : String} :
    body.stone? = some stone ↔ ∃ level, body = .height level stone := by
  cases body <;> simp [Body.stone?]

/-- The locals of a name among terrains: the plain local if it stands for the name, and those of the
nodes with the name if not. -/
def terrainLocalsFor (g : Graph) (script : Script) (name : String) : List String :=
  if Table.get? script.contents (contentLocal name) = some name then [contentLocal name]
  else (g.nodes.filter (terrainName? · == some name)).map (contentsOf (assignment g).slots)

/-- The locals of a name: those that water and stone have, and those of terrains. -/
def localsFor (g : Graph) (script : Script) (name : String) : List String :=
  (if name = "default:water_source" then ["c_water"] else []) ++
  (if name = "default:stone" then script.body.stone?.toList else []) ++
  terrainLocalsFor g script name

section Script

variable {g : Graph} (distinct : g.ids.Nodup) {options : Options} {script : Script}
  (made : ofGraph g options = .ok script)

include made

/-- The wish for stone is granted to a body that is a height. -/
theorem stone_granted_iff {slot name : String} : (∃ before w after,
      stoneWishes g = before ++ w :: after ∧ w.name = name ∧
        (((declaredBy g.nodes).claims before).claim w.slot w.name w.suffix).slot = slot) ↔
    name = "default:stone" ∧ script.body.stone? = some slot := by
  rw [Body.stone?_eq_some]
  rcases bodyOf_cases (contents_eq made).2 with ⟨none, _, other⟩ | ⟨level, one, _, height⟩
  · rw [none]
    refine iff_of_false ?_ fun ⟨_, level, height⟩ => other level slot height
    rintro ⟨before, w, after, split, _⟩
    simp at split
  · rw [one, height, assignment, declared_foldl]
    constructor
    · rintro ⟨before, w, after, split, rfl, rfl⟩
      obtain ⟨rfl, rfl, rfl⟩ : before = [] ∧ w = ⟨"c_stone", "default:stone", "_1"⟩ ∧
          after = [] := by
        cases before <;> simp_all
      exact ⟨rfl, level, rfl⟩
    · rintro ⟨rfl, _, same⟩
      exact ⟨[], _, [], rfl, rfl, (Body.height.inj same).2⟩

theorem prefix_stone {stone : String} (used : script.body.stone? = some stone) :
    "c_stone".toList <+: stone.toList := by
  obtain ⟨level, body⟩ := Body.stone?_eq_some.mp used
  rcases bodyOf_cases (contents_eq made).2 with ⟨_, _, other⟩ | ⟨_, _, _, height⟩
  · exact absurd body (other level stone)
  · obtain ⟨_, rfl⟩ := Body.height.inj (body.symm.trans height)
    exact Locals.prefix_claim _ ⟨"c_stone", "default:stone", "_1"⟩ (by decide)

include distinct

/-- A script declares the locals of air and water, those of its terrain nodes, and one for the stone
of its body. -/
theorem get?_contents_iff {slot name : String} : Table.get? script.contents slot = some name ↔
    builtIn.get? slot = some name ∨
    (∃ n ∈ g.nodes, terrainName? n = some name ∧ contentsOf (assignment g).slots n = slot) ∨
    name = "default:stone" ∧ script.body.stone? = some slot := by
  have terrain : (∃ before n after, g.nodes = before ++ n :: after ∧
        terrainName? n = some name ∧ (claimOf before n name).slot = slot) ↔
      ∃ n ∈ g.nodes, terrainName? n = some name ∧ contentsOf (assignment g).slots n = slot := by
    constructor
    · rintro ⟨before, n, after, split, named, rfl⟩
      exact ⟨n, by simp [split], named, contentsOf_eq_claimOf distinct split named⟩
    · rintro ⟨n, member, named, rfl⟩
      obtain ⟨before, after, split⟩ := List.append_of_mem member
      exact ⟨before, n, after, split, named, (contentsOf_eq_claimOf distinct split named).symm⟩
  have more : ∀ w ∈ stoneWishes g, w.suffix.length ≠ 0 := fun w listed =>
    suffix_ne_of_mem_wishes (List.mem_append_right _ listed)
  rw [contents_eq_claims made, Locals.claims_get?_iff more, declaredBy_get?_iff, terrain,
    stone_granted_iff made, or_assoc]

omit distinct made in
theorem mem_terrainLocalsFor {slot name : String} : slot ∈ terrainLocalsFor g script name ↔
    if Table.get? script.contents (contentLocal name) = some name then slot = contentLocal name
    else ∃ n ∈ g.nodes, terrainName? n = some name ∧ contentsOf (assignment g).slots n = slot := by
  unfold terrainLocalsFor
  split <;> simp [and_assoc]

/-- What a script declares for a name are the locals of the name. -/
theorem get?_eq_some_iff_mem_localsFor {slot name : String} :
    Table.get? script.contents slot = some name ↔ slot ∈ localsFor g script name := by
  have mem : slot ∈ localsFor g script name ↔
      (name = "default:water_source" ∧ slot = "c_water") ∨
      (name = "default:stone" ∧ script.body.stone? = some slot) ∨
      slot ∈ terrainLocalsFor g script name := by
    simp only [localsFor, List.mem_append, List.mem_ite_nil_right, List.mem_singleton,
      Option.mem_toList, or_assoc]
  rw [mem, mem_terrainLocalsFor]
  constructor
  · intro found
    rcases (get?_contents_iff distinct made).mp found with built | ⟨n, member, named, rfl⟩ | stone
    · rcases builtIn_get?_eq_some built with ⟨rfl, rfl⟩ | ⟨rfl, rfl⟩
      · -- the plain local of air is the built-in one
        exact .inr (.inr (by rw [contentLocal_air, if_pos found]))
      · exact .inl ⟨rfl, rfl⟩
    · refine .inr (.inr ?_)
      split
      · next owned => exact local_of_owned distinct made member named owned
      · exact ⟨n, member, named, rfl⟩
    · exact .inr (.inl stone)
  · rintro (⟨rfl, rfl⟩ | stone | listed)
    · exact (get?_contents_iff distinct made).mpr (.inl rfl)
    · exact (get?_contents_iff distinct made).mpr (.inr (.inr stone))
    · split at listed
      · next owned => exact listed ▸ owned
      · exact (get?_contents_iff distinct made).mpr (.inr (.inl listed))

theorem nodup_terrainLocalsFor (name : String) : (terrainLocalsFor g script name).Nodup := by
  unfold terrainLocalsFor
  split
  · exact List.nodup_singleton _
  · next free =>
    refine List.Nodup.map_on (fun m mm n mn same => ?_) ((List.Nodup.of_map _ distinct).filter _)
    obtain ⟨mm, first⟩ := List.mem_filter.mp mm
    obtain ⟨mn, second⟩ := List.mem_filter.mp mn
    exact ((local_eq_iff distinct made mm mn (beq_iff_eq.mp first) (beq_iff_eq.mp second)).mp
      same).resolve_right free

omit made in
theorem prefix_of_mem_terrainLocalsFor {slot name : String}
    (listed : slot ∈ terrainLocalsFor g script name) :
    (contentLocal name).toList <+: slot.toList := by
  rw [mem_terrainLocalsFor] at listed
  split at listed
  · rw [listed]
  · obtain ⟨n, member, named, rfl⟩ := listed
    obtain ⟨before, after, split⟩ := List.append_of_mem member
    rw [contentsOf_eq_claimOf distinct split named]
    exact Locals.prefix_claim _ ⟨contentLocal name, name, "_" ++ integerText n.id⟩ (by simp)

/-- The locals of water and stone are none of those that terrains of these names get. -/
theorem nodup_localsFor (name : String) : (localsFor g script name).Nodup := by
  have apart := nodup_terrainLocalsFor distinct made name
  have begun : ∀ slot ∈ terrainLocalsFor g script name,
      (contentLocal name).toList <+: slot.toList :=
    fun _ => prefix_of_mem_terrainLocalsFor distinct
  unfold localsFor
  by_cases water : name = "default:water_source"
  · subst water
    rw [if_pos rfl, if_neg (by decide), List.append_nil, List.singleton_append, List.nodup_cons]
    exact ⟨fun listed => absurd (begun _ listed) (by decide +kernel), apart⟩
  rw [if_neg water, List.nil_append]
  by_cases stone : name = "default:stone"
  · subst stone
    rw [if_pos rfl]
    cases used : script.body.stone? with
    | none => exact apart
    | some stone =>
      refine List.nodup_cons.mpr ⟨fun listed => ?_, apart⟩
      rcases List.prefix_or_prefix_of_prefix (prefix_stone made used) (begun _ listed) with h | h
      · exact absurd h (by decide +kernel)
      · exact absurd h (by decide +kernel)
  · rwa [if_neg stone, List.nil_append]

end Script

/-! ## 4. Lines that fetch a name -/

/-- The lines that declare the contents of a script. -/
def contentLines (s : Script) : List String :=
  s.contents.map fun c => contentLine c.1 c.2

/-- The lines of a script that fetch a name, one for each of its locals. -/
theorem countP_fetches {g : Graph} (distinct : g.ids.Nodup) {options : Options} {script : Script}
    (made : ofGraph g options = .ok script) (name : String) :
    script.contentLines.countP (fetches name) = (localsFor g script name).length := by
  have functional : Table.Functional script.contents :=
    (contents_eq made).1 ▸ Locals.functional_claims _
  have locals : ((script.contents.filter (·.2 == name)).map (·.1)).Perm
      (localsFor g script name) := by
    refine (List.perm_ext_iff_of_nodup ?_ (nodup_localsFor distinct made name)).mpr fun slot => ?_
    · exact functional.sublist (List.filter_sublist.map _)
    · rw [← get?_eq_some_iff_mem_localsFor distinct made, functional.get?_iff]
      simp
  calc script.contentLines.countP (fetches name)
      = script.contents.countP fun entry => fetches name (contentLine entry.1 entry.2) :=
        List.countP_map
    _ = script.contents.countP (·.2 == name) := List.countP_congr fun entry listed => by
        rw [fetches_contentLine (slot_contents made entry listed), beq_iff_eq]
    _ = (localsFor g script name).length := by
        rw [← locals.length_eq, List.length_map, List.countP_eq_length_filter]

/-! ## 5. Shared lines -/

/-- How the names of a script share its lines and locals. Its contents are declared in a section of
their own. The plain local of a terrain stands for some name. If it stands for the name of the
terrain, one line fetches the name, and all nodes with the name use this local; otherwise each of
them has a line and a local of its own. The names of water and of stone have lines besides. -/
structure Sharing (g : Graph) (script : Script) : Prop where
  sections : ∃ before after, script.lines =
    before ++ ["-- Define content IDs"] ++ script.contentLines ++ [""] ++ after
  taken : ∀ n ∈ g.nodes, ∀ name, terrainName? n = some name →
    ∃ other, Table.get? script.contents (contentLocal name) = some other
  fetched : ∀ name, script.contentLines.countP (fetches name) =
    (if name = "default:water_source" then 1 else 0) +
    (if name = "default:stone" ∧ script.body.stone?.isSome then 1 else 0) +
    if Table.get? script.contents (contentLocal name) = some name then 1
    else g.nodes.countP (terrainName? · == some name)
  shared : ∀ m ∈ g.nodes, ∀ n ∈ g.nodes, ∀ name, terrainName? m = some name →
    terrainName? n = some name →
    (contentsOf (assignment g).slots m = contentsOf (assignment g).slots n ↔
      m = n ∨ Table.get? script.contents (contentLocal name) = some name)

end Script

namespace Graph

open Script

/-- A script fetches a name once for the plain local, or for each node with the name if the plain
local stands for another one. -/
theorem sharing_ofGraph {g : Graph} (distinct : g.ids.Nodup) {options : Options} {script : Script}
    (made : ofGraph g options = .ok script) : Sharing g script where
  sections := by
    obtain ⟨before, after, split⟩ : ∃ before after, script.preamble =
        before ++ ["-- Define content IDs"] ++ script.contentLines ++ [""] ++ after := by
      rw [preamble, List.append_assoc _ _ ["local water_level = " ++ _, _, _, _]]
      exact ⟨_, _, rfl⟩
    refine ⟨script.header :: before, after ++ script.logic, ?_⟩
    rw [lines_eq, split]
    simp only [List.append_assoc, List.cons_append]
  taken n member name named := by
    rcases local_cases distinct made member named with ⟨owned, _⟩ | ⟨⟨other, _, found⟩, _⟩
    · exact ⟨name, owned⟩
    · exact ⟨other, found⟩
  fetched name := by
    rw [countP_fetches distinct made, localsFor, List.length_append, List.length_append]
    congr 1
    · congr 1
      · split <;> rfl
      · by_cases stone : name = "default:stone" <;>
          cases script.body.stone? <;> simp [stone]
    · rw [terrainLocalsFor]
      split
      · rfl
      · rw [List.length_map, List.countP_eq_length_filter]
  shared m mm n mn name first second := local_eq_iff distinct made mm mn first second

/-- Two terrains of one name behind a third that falls together with them as an identifier. -/
def homonyms : Graph :=
  [Mutation.add "terrain-type" (.int 0) (.int 0), .add "terrain-type" (.int 0) (.int 9),
    .add "terrain-type" (.int 0) (.int 18), .update 1 [("name", .text "rock a")],
    .update 2 [("name", .text "Rock A")],
    .update 3 [("name", .text "Rock A")]].foldl Mutation.apply (empty 7)

/-- A graph without an output has a script, and its contents can be told from the names. -/
theorem ofGraph_homonyms : ∃ script, ofGraph homonyms Options.default = .ok script ∧
    script.contents = [("c_air", "air"), ("c_water", "default:water_source"),
      ("c_rock_a", "rock a"), ("c_rock_a_2", "Rock A"), ("c_rock_a_3", "Rock A")] := by
  have emitted : (ofGraph homonyms Options.default).isOk = true := by decide +kernel
  cases made : ofGraph homonyms Options.default with
  | error cause =>
    rw [made] at emitted
    cases emitted
  | ok script =>
    have asked : wishes homonyms = [⟨"c_air", "air", "_1"⟩,
        ⟨"c_water", "default:water_source", "_1"⟩, ⟨"c_rock_a", "rock a", "_1"⟩,
        ⟨"c_rock_a", "Rock A", "_2"⟩, ⟨"c_rock_a", "Rock A", "_3"⟩] := by
      decide +kernel
    refine ⟨script, rfl, ?_⟩
    rw [(contents_eq made).1, asked]
    decide +kernel

/-- The name that comes first is fetched once. -/
theorem homonyms_sharing : ∃ script, ofGraph homonyms Options.default = .ok script ∧
    Table.get? script.contents (Lua.contentLocal "rock a") = some "rock a" ∧
    Sharing homonyms script := by
  have distinct : homonyms.ids.Nodup := by decide +kernel
  obtain ⟨script, made, contents⟩ := ofGraph_homonyms
  refine ⟨script, made, ?_, sharing_ofGraph distinct made⟩
  rw [contents]
  decide +kernel

/-- The name of the two others is fetched twice, for two locals. -/
theorem homonyms_split : ∃ script, ofGraph homonyms Options.default = .ok script ∧
    script.contentLines = ["local c_air = minetest.get_content_id(\"air\")",
      "local c_water = minetest.get_content_id(\"default:water_source\")",
      "local c_rock_a = minetest.get_content_id(\"rock a\")",
      "local c_rock_a_2 = minetest.get_content_id(\"Rock A\")",
      "local c_rock_a_3 = minetest.get_content_id(\"Rock A\")"] ∧
    script.contentLines.countP (fetches "Rock A") = 2 ∧
    ∃ m ∈ homonyms.nodes, ∃ n ∈ homonyms.nodes,
      terrainName? m = some "Rock A" ∧ terrainName? n = some "Rock A" ∧
      contentsOf (assignment homonyms).slots m ≠ contentsOf (assignment homonyms).slots n := by
  have distinct : homonyms.ids.Nodup := by decide +kernel
  obtain ⟨script, made, contents⟩ := ofGraph_homonyms
  obtain ⟨a, b, c, nodes⟩ : ∃ a b c, homonyms.nodes = [a, b, c] := ⟨_, _, _, rfl⟩
  have names : homonyms.nodes.map terrainName? = [some "rock a", some "Rock A", some "Rock A"] := by
    decide +kernel
  have ids : homonyms.nodes.map (·.id) = [1, 2, 3] := by decide +kernel
  simp only [nodes, List.map_cons, List.map_nil, List.cons.injEq, and_true] at names ids
  refine ⟨script, made, ?_, ?_, b, by simp [nodes], c, by simp [nodes], names.2.1, names.2.2, ?_⟩
  · rw [contentLines, contents]
    decide +kernel
  · rw [contentLines, contents]
    decide +kernel
  · rw [Ne, local_eq_iff distinct made (by simp [nodes]) (by simp [nodes]) names.2.1 names.2.2,
      contents]
    rintro (rfl | plain)
    · omega
    · exact absurd plain (by decide +kernel)

end Graph

end Landform
