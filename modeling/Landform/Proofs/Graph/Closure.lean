import Landform.Graph.Reach
import Mathlib.Data.List.TakeWhile
import Mathlib.Logic.Relation

/-!
# The reachability search

`Reach.closure` finds exactly the nodes to which a path leads that starts at one of the given nodes
and stays among the unseen ones.

1. `mem_closure`: the search against paths inside a domain.
2. `mem_closure_singleton`: against paths of any nodes, when the domain is closed under successors.
-/

namespace Landform.Reach

open Relation

/-- `From next domain seeds n`: a path inside `domain` leads from one of `seeds` to `n`. -/
inductive From (next : Int → List Int) (domain seeds : List Int) : Int → Prop
  | seed {n : Int} : n ∈ domain → n ∈ seeds → From next domain seeds n
  | step {m n : Int} : From next domain seeds m → n ∈ domain → n ∈ next m →
      From next domain seeds n

variable {wide : Bool} {next : Int → List Int} {domain seeds : List Int}

theorem From.mono {domain' seeds' : List Int} {n : Int} (reached : From next domain seeds n)
    (inside : ∀ a ∈ domain, a ∈ domain') (starts : ∀ a ∈ seeds, a ∈ seeds') :
    From next domain' seeds' n := by
  induction reached with
  | seed member listed => exact .seed (inside _ member) (starts _ listed)
  | step _ member follows ih => exact .step ih (inside _ member) follows

/-- A seed that leaves the domain hands over to its successors. -/
theorem From.expand {m n : Int} (member : m ∈ domain) (listed : m ∈ seeds)
    (reached : From next (domain.erase m) (next m ++ seeds) n) : From next domain seeds n := by
  induction reached with
  | seed inside start =>
    rcases List.mem_append.mp start with follows | given
    · exact .step (.seed member listed) (List.mem_of_mem_erase inside) follows
    · exact .seed (List.mem_of_mem_erase inside) given
  | step _ inside follows ih => exact .step ih (List.mem_of_mem_erase inside) follows

/-- A path to another node goes on without a seed that leaves the domain. -/
theorem From.shrink {m n : Int} {rest : List Int} (reached : From next domain (m :: rest) n)
    (other : n ≠ m) : From next (domain.erase m) (next m ++ rest) n := by
  induction reached with
  | seed inside start =>
    have given := (List.mem_cons.mp start).resolve_left other
    exact .seed ((List.mem_erase_of_ne other).mpr inside) (List.mem_append_right _ given)
  | @step l n _ inside follows ih =>
    have kept := (List.mem_erase_of_ne other).mpr inside
    by_cases same : l = m
    · subst same
      exact .seed kept (List.mem_append_left _ follows)
    · exact .step (ih same) kept follows

/-- Seeds outside the domain start no path. -/
theorem From.iff_dropWhile {unseen waiting : List Int} {n : Int} :
    From next unseen waiting n ↔
      From next unseen (waiting.dropWhile fun a => !unseen.contains a) n := by
  constructor
  · intro reached
    induction reached with
    | seed inside start =>
      refine .seed inside ?_
      -- a seed among those that are skipped would have been seen already
      rw [← List.takeWhile_append_dropWhile (p := fun a => !unseen.contains a) (l := waiting)]
        at start
      refine (List.mem_append.mp start).resolve_left fun skipped => ?_
      simpa [inside] using List.mem_takeWhile_imp skipped
    | step _ inside follows ih => exact .step ih inside follows
  · exact fun reached => reached.mono (fun _ h => h) fun _ => (List.dropWhile_suffix _).mem

theorem mem_closure {unseen waiting : List Int} {n : Int} :
    n ∈ closure wide next unseen waiting ↔ From next unseen waiting n := by
  fun_induction closure wide next unseen waiting with
  | case1 unseen waiting none =>
    rw [From.iff_dropWhile, none]
    refine ⟨fun member => absurd member List.not_mem_nil, fun reached => ?_⟩
    induction reached with
    | seed _ start => exact absurd start List.not_mem_nil
    | step _ _ _ ih => exact absurd ih List.not_mem_nil
  | case2 unseen waiting m rest found ih =>
    have fresh := mem_of_dropWhile_eq_cons found
    rw [From.iff_dropWhile, found]
    constructor
    · intro member
      rcases List.mem_cons.mp member with rfl | later
      · exact .seed fresh List.mem_cons_self
      · refine .expand fresh List.mem_cons_self ((ih.mp later).mono (fun _ h => h) ?_)
        intro a start
        rcases mem_upcoming.mp start with follows | given
        · exact List.mem_append_left _ follows
        · exact List.mem_append_right _ (List.mem_cons_of_mem _ given)
    · intro reached
      -- a path to another node need not come back to the seed that the search has just taken
      by_cases same : n = m
      · exact List.mem_cons.mpr (.inl same)
      · refine List.mem_cons_of_mem _ (ih.mpr ((reached.shrink same).mono (fun _ h => h) ?_))
        exact fun a start => mem_upcoming.mpr (List.mem_append.mp start)

/-- In a domain that holds every successor, the search follows all paths. -/
theorem mem_closure_singleton {start n : Int} (closed : ∀ a, ∀ b ∈ next a, b ∈ domain) :
    n ∈ closure wide next domain [start] ↔
      start ∈ domain ∧ ReflTransGen (fun a b => b ∈ next a) start n := by
  rw [mem_closure]
  constructor
  · intro reached
    induction reached with
    | seed inside given =>
      rw [List.mem_singleton] at given
      subst given
      exact ⟨inside, .refl⟩
    | step _ _ follows ih => exact ⟨ih.1, ih.2.tail follows⟩
  · rintro ⟨inside, path⟩
    induction path with
    | refl => exact .seed inside (List.mem_singleton.mpr rfl)
    | tail _ follows ih => exact .step ih (closed _ _ follows) follows

theorem mem_successors {edges : List (Int × Int)} {a b : Int} :
    b ∈ successors edges a ↔ (a, b) ∈ edges := by
  simp [successors]

end Landform.Reach
