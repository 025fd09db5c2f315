import Landform.Proofs.Params
import Landform.Proofs.Script.Contents

/-!
# Claims one after the other

A script claims a local for air and for water, for the name of each terrain node in the order of the
nodes, and for stone when its body is a height. Each claim tries longer and longer locals, and ends
after no more attempts than there are declared locals. What is claimed later leaves a local to the
name that got it.

1. `claim_settles`: the attempts of one claim.
2. `claims_get?`: claims one after the other.
3. `contents_eq`: the contents of a script are what its claims declare.
-/

namespace Landform.Script

open Lua Decimal

/-- What a claim asks for: a local, the name that it is to stand for, and what to append as long as
it stands for another one. -/
structure Wish where
  slot : String
  name : String
  suffix : String
deriving Repr, DecidableEq

namespace Locals

/-! ## 1. One claim -/

/-- A local with a suffix appended some times. -/
def attempt (slot suffix : String) : Nat → String
  | 0 => slot
  | k + 1 => attempt (slot ++ suffix) suffix k

/-- How a claim ends: after no more attempts than there are declared locals, all of them declared
for other names, with a local that is free or declared for the name. -/
structure Settles (declared : Locals) (w : Wish) (slot : String) : Prop where
  attempts : ∃ k ≤ declared.length, slot = attempt w.slot w.suffix k ∧
    ∀ j < k, ∃ other, declared.get? (attempt w.slot w.suffix j) = some other ∧ other ≠ w.name
  free : ∀ other, declared.get? slot = some other → other = w.name

theorem choose_eq_attempt (declared : Locals) (slot name suffix : String)
    (more : suffix.length ≠ 0) : ∃ k ≤ declared.longEnough slot.length,
      declared.choose slot name suffix = attempt slot suffix k ∧
      ∀ j < k, ∃ other, declared.get? (attempt slot suffix j) = some other ∧ other ≠ name := by
  fun_induction choose declared slot name suffix with
  | case1 slot _ => exact ⟨0, Nat.zero_le _, rfl, fun j none => absurd none (Nat.not_lt_zero j)⟩
  | case2 slot _ _ _ => exact ⟨0, Nat.zero_le _, rfl, fun j none => absurd none (Nat.not_lt_zero j)⟩
  | case3 slot entry found taken ih =>
    obtain ⟨k, bound, chosen, others⟩ := ih
    have named : entry.1 = slot := by simpa using List.find?_some found
    have longer : entry.1.length < (slot ++ suffix).length := by
      rw [named, String.length_append]
      omega
    -- the local that was tried is as long as itself, and shorter than all further attempts
    have fewer := longEnough_lt (List.mem_of_find?_eq_some found) longer
    rw [named] at fewer
    refine ⟨k + 1, Nat.lt_of_le_of_lt bound fewer, chosen, fun j earlier => ?_⟩
    cases j with
    | zero =>
      refine ⟨entry.2, ?_, ?_⟩
      · show declared.get? slot = some entry.2
        rw [Table.get?, found]
        rfl
      · simp only [Bool.or_eq_true, beq_iff_eq, not_or] at taken
        exact taken.1
    | succ j => exact others j (Nat.lt_of_succ_lt_succ earlier)

variable (declared : Locals) (w : Wish) (more : w.suffix.length ≠ 0)

theorem slot_claim (slot name suffix : String) :
    (declared.claim slot name suffix).slot = declared.choose slot name suffix := by
  rw [claim]
  split <;> rfl

include more

/-- Every claim ends. -/
theorem claim_settles :
    declared.Settles w (declared.claim w.slot w.name w.suffix).slot := by
  obtain ⟨k, bound, chosen, others⟩ := declared.choose_eq_attempt w.slot w.name w.suffix more
  rw [slot_claim]
  exact ⟨⟨k, Nat.le_trans bound List.countP_le_length, chosen, others⟩,
    declared.choose_free w.slot w.name w.suffix more⟩

omit more

/-- A local that is not declared is taken as it is. -/
theorem claim_of_absent {declared : Locals} {slot : String} (name suffix : String)
    (absent : declared.get? slot = none) :
    declared.claim slot name suffix = ⟨slot, declared.put slot name, true⟩ := by
  have unfound : declared.find? (·.1 == slot) = none := Option.map_eq_none_iff.mp absent
  have chosen : declared.choose slot name suffix = slot := by
    rw [choose]
    split
    · rfl
    · next found =>
      rw [unfound] at found
      cases found
  rw [claim, chosen, absent]
  rfl

/-! ## 2. Claims one after the other -/

/-- The declared locals after claims for some wishes, one after the other. -/
def claims (declared : Locals) (wishes : List Wish) : Locals :=
  wishes.foldl (fun declared w => (declared.claim w.slot w.name w.suffix).declared) declared

/-- The local that a wish gets when others have been granted before it. -/
def granted (before : List Wish) (w : Wish) : String :=
  ((claims [] before).claim w.slot w.name w.suffix).slot

theorem extends_claims (wishes : List Wish) : (declared.claims wishes).Extends declared := by
  induction wishes generalizing declared with
  | nil => exact .refl _
  | cons w rest ih => exact (declared.extends_claim w.slot w.name w.suffix).trans (ih _)

theorem claims_append (first second : List Wish) :
    declared.claims (first ++ second) = (declared.claims first).claims second :=
  List.foldl_append

/-- Claims give locals of a form that their wishes have and that their suffixes keep. -/
theorem All.claims {good : String → Prop} {declared : Locals} (all : declared.All good)
    {wishes : List Wish}
    (each : ∀ w ∈ wishes, good w.slot ∧ ∀ slot, good slot → good (slot ++ w.suffix)) :
    (declared.claims wishes).All good := by
  induction wishes generalizing declared with
  | nil => exact all
  | cons w rest ih =>
    obtain ⟨⟨base, kept⟩, others⟩ := List.forall_mem_cons.mp each
    exact ih (all.claim base w.name kept).1 others

theorem functional_claims (wishes : List Wish) : Table.Functional (claims [] wishes) :=
  (extends_claims [] wishes).functional List.nodup_nil

/-- What is claimed later leaves a local to the name that got it. -/
theorem claims_get? {wishes before after : List Wish} {w : Wish} (more : w.suffix.length ≠ 0)
    (split : wishes = before ++ w :: after) :
    (claims [] wishes).get? (granted before w) = some w.name := by
  rw [split, claims_append]
  refine ((claims [] before).claim w.slot w.name w.suffix).declared.extends_claims after |>.kept
    _ _ ?_
  exact get?_claim _ _ _ _ more

end Locals

/-! ## 3. The claims of a script -/

/-- What is claimed for a terrain node: the local of its name, made longer by its id. -/
def terrainWish? (n : Node) : Option Wish :=
  match n.params with
  | .terrainType t => some ⟨contentLocal t.name, t.name, "_" ++ integerText n.id⟩
  | _ => none

/-- What the body of a script claims: stone, when it is a height. -/
def stoneWishes (g : Graph) : List Wish :=
  if g.output?.isSome && !hasComparison g then [⟨"c_stone", "default:stone", "_1"⟩] else []

/-- What a script claims, in order. -/
def wishes (g : Graph) : List Wish :=
  [⟨"c_air", "air", "_1"⟩, ⟨"c_water", "default:water_source", "_1"⟩] ++
    g.nodes.filterMap terrainWish? ++ stoneWishes g

/-- Every wish is one of four. -/
theorem mem_wishes {g : Graph} {w : Wish} (member : w ∈ wishes g) :
    w = ⟨"c_air", "air", "_1"⟩ ∨ w = ⟨"c_water", "default:water_source", "_1"⟩ ∨
    (∃ n t, n ∈ g.nodes ∧ n.params = .terrainType t ∧
      w = ⟨contentLocal t.name, t.name, "_" ++ integerText n.id⟩) ∨
    w = ⟨"c_stone", "default:stone", "_1"⟩ := by
  simp only [wishes, stoneWishes, List.mem_append, List.mem_cons, List.not_mem_nil, or_false,
    List.mem_filterMap] at member
  rcases member with ((air | water) | ⟨n, listed, wished⟩) | stone
  · exact .inl air
  · exact .inr (.inl water)
  · unfold terrainWish? at wished
    split at wished
    · next t params =>
      cases wished
      exact .inr (.inr (.inl ⟨n, t, listed, params, rfl⟩))
    · cases wished
  · split at stone
    · exact .inr (.inr (.inr (List.mem_singleton.mp stone)))
    · cases stone

/-- A claim of a script has a suffix to append. -/
theorem suffix_ne_of_mem_wishes {g : Graph} {w : Wish} (member : w ∈ wishes g) :
    w.suffix.length ≠ 0 := by
  rcases mem_wishes member with rfl | rfl | ⟨n, t, _, _, rfl⟩ | rfl
  · decide
  · decide
  · simp
  · decide

/-- Air and water get the locals that every script has. -/
theorem builtIn_eq : Locals.claims []
    [⟨"c_air", "air", "_1"⟩, ⟨"c_water", "default:water_source", "_1"⟩] = builtIn := by
  rw [Locals.claims, List.foldl_cons, Locals.claim_of_absent _ _ rfl, List.foldl_cons,
    Locals.claim_of_absent _ _ (by decide)]
  rfl

theorem declared_addNode (a : Assignment) (n : Node) :
    (a.addNode n).declared = a.declared.claims (terrainWish? n).toList := by
  obtain ⟨id, params, x, y, extras⟩ := n
  cases params <;> rfl

/-- The terrain nodes claim their locals in order. -/
theorem declared_foldl (nodes : List Node) (a : Assignment) :
    (nodes.foldl Assignment.addNode a).declared =
      a.declared.claims (nodes.filterMap terrainWish?) := by
  induction nodes generalizing a with
  | nil => rfl
  | cons n rest ih =>
    rw [List.foldl_cons, ih, declared_addNode, List.filterMap_cons]
    cases terrainWish? n <;> rfl

theorem declared_assignment (g : Graph) : (assignment g).declared = Locals.claims []
    ([⟨"c_air", "air", "_1"⟩, ⟨"c_water", "default:water_source", "_1"⟩] ++
      g.nodes.filterMap terrainWish?) := by
  rw [assignment, declared_foldl, Locals.claims_append, builtIn_eq]

/-- A body that is a height claims a local for stone, and no other body claims any. -/
theorem bodyOf_cases {g : Graph} {a : Assignment} {body : Body} {declared : Locals}
    (made : bodyOf g a = .ok (body, declared)) :
    (stoneWishes g = [] ∧ declared = a.declared ∧ ∀ level stone, body ≠ .height level stone) ∨
    ∃ level, stoneWishes g = [⟨"c_stone", "default:stone", "_1"⟩] ∧
      declared = (a.declared.claim "c_stone" "default:stone" "_1").declared ∧
      body = .height level (a.declared.claim "c_stone" "default:stone" "_1").slot := by
  unfold bodyOf at made
  unfold stoneWishes
  cases output : g.output? with
  | none =>
    rw [output] at made
    cases made
    exact .inl ⟨rfl, rfl, by rintro _ _ ⟨⟩⟩
  | some o =>
    rw [output] at made
    dsimp only at made
    cases compares : hasComparison g with
    | true =>
      rw [compares, if_pos rfl] at made
      split at made
      · cases made
        exact .inl ⟨rfl, rfl, by rintro _ _ ⟨⟩⟩
      · obtain ⟨d, _, made⟩ := Except.bind_eq_ok.mp made
        cases made
        exact .inl ⟨rfl, rfl, by rintro _ _ ⟨⟩⟩
    | false =>
      rw [compares, if_neg (by decide)] at made
      obtain ⟨level, _, made⟩ := Except.bind_eq_ok.mp made
      cases made
      exact .inr ⟨level, rfl, rfl, rfl⟩

/-- A body claims a local for stone at most, and uses the one that it gets. -/
theorem bodyOf_declared {g : Graph} {a : Assignment} {body : Body} {declared : Locals}
    (made : bodyOf g a = .ok (body, declared)) :
    declared = a.declared.claims (stoneWishes g) ∧
    ∀ level stone, body = .height level stone → declared.get? stone = some "default:stone" := by
  rcases bodyOf_cases made with ⟨none, rfl, other⟩ | ⟨level, one, rfl, rfl⟩
  · rw [none]
    exact ⟨rfl, fun level stone height => absurd height (other level stone)⟩
  · rw [one]
    refine ⟨rfl, ?_⟩
    rintro _ _ ⟨⟩
    exact Locals.get?_claim _ _ _ _ (by decide)

/-- The contents of a script are what its claims declare. -/
theorem contents_eq {g : Graph} {options : Options} {script : Script}
    (made : ofGraph g options = .ok script) :
    script.contents = Locals.claims [] (wishes g) ∧
    bodyOf g (assignment g) = .ok (script.body, script.contents) := by
  obtain ⟨⟨body, declared⟩, ofBody, made⟩ := Except.bind_eq_ok.mp made
  obtain ⟨level, _, made⟩ := Except.bind_eq_ok.mp made
  obtain ⟨header, _, made⟩ := Except.bind_eq_ok.mp made
  cases made
  refine ⟨?_, ofBody⟩
  rw [wishes, Locals.claims_append, ← declared_assignment]
  exact (bodyOf_declared ofBody).1

end Landform.Script
