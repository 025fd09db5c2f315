import Landform.Graph.Sorting
import Landform.Proofs.Graph.Closure
import Mathlib.Data.List.Nodup
import Mathlib.Data.List.Perm.Subperm
import Mathlib.Data.Set.Finite.Basic
import Mathlib.Logic.Function.Iterate
import Mathlib.Order.WellFounded

/-!
# Topological sorting and cycles

At any time the nodes that have had their turn, or wait for it, are those without an edge left, and
the edges left are those that start at a node that has not had its turn. Parallel edges and edges
from a node to itself are counted and released one by one, so that this holds whatever the edges
are. At the end no node waits. A node that has had its turn is on no cycle, since its predecessors
have had theirs before it; every other node has a predecessor without a turn, and finitely many such
nodes contain a cycle.

1. `Counted.release`, `Counted.releases`: what one edge, and all edges of a turn, preserve.
2. `Sorted.step`, `Sorted.run`: what a turn and all turns preserve.
3. `run_eq_iterate`, `visited_run_le`: how many turns there are.
4. `visited_ne_iff`: the nodes without a turn against cycles.
-/

namespace Landform

open Relation

namespace Sorting

variable {edges : List (Int × Int)} {nodes done left : List Int} {s : Sorting}

/-! ## Definitions -/

/-- There is an edge from a node to another. -/
def Edge (edges : List (Int × Int)) (a b : Int) : Prop :=
  (a, b) ∈ edges

/-- The ends of the edges that do not start at one of some nodes. -/
def unreleased (edges : List (Int × Int)) (done : List Int) : List Int :=
  (edges.filter fun e => !done.contains e.1).map (·.2)

/-- The numbers count the edges into each node that are left; the nodes without one have had their
turn or wait for it, each once. -/
structure Counted (nodes done left : List Int) (s : Sorting) : Prop where
  degrees : s.degrees = nodes.map fun n => (n, (left.count n : Int))
  distinct : (done ++ s.queue).Nodup
  exact : ∀ n, n ∈ done ++ s.queue ↔ n ∈ nodes ∧ n ∉ left

/-- Between two turns, the edges left start at the nodes that have had no turn, and no path leads
back without end from those that have had theirs. -/
structure Sorted (edges : List (Int × Int)) (nodes done : List Int) (s : Sorting) : Prop
    extends Counted nodes done (unreleased edges done) s where
  visited : s.visited = done.length
  founded : ∀ n ∈ done, Acc (Edge edges) n

/-! ## 1. Releasing edges -/

theorem Counted.perm {left' : List Int} (counted : Counted nodes done left s)
    (same : left.Perm left') : Counted nodes done left' s where
  degrees := by
    rw [counted.degrees]
    exact List.map_congr_left fun n _ => by rw [same.count_eq]
  distinct := counted.distinct
  exact n := by rw [counted.exact, same.mem_iff]

theorem lower_count (n m : Int) (left : List Int) :
    lower n (m, ((n :: left).count m : Int)) = (m, (left.count m : Int)) := by
  unfold lower
  by_cases same : m = n
  · subst same
    rw [if_pos (beq_self_eq_true m), List.count_cons_self]
    simp
  · rw [if_neg (by simpa using same), List.count_cons_of_ne (Ne.symm same)]

/-- A node comes to wait when the last edge into it is released. -/
theorem Counted.release {n : Int} (counted : Counted nodes done (n :: left) s) :
    Counted nodes done left (s.release n) := by
  have degrees : s.degrees.map (lower n) = nodes.map fun m => (m, (left.count m : Int)) := by
    rw [counted.degrees, List.map_map]
    exact List.map_congr_left fun m _ => lower_count n m left
  have waits : (s.degrees.map (lower n)).contains (n, 0) = true ↔ n ∈ nodes ∧ n ∉ left := by
    rw [List.contains_iff_mem, degrees, List.mem_map]
    constructor
    · rintro ⟨m, member, same⟩
      obtain ⟨rfl, none⟩ := Prod.mk.inj same
      exact ⟨member, List.count_eq_zero.mp (Int.ofNat_eq_zero.mp none)⟩
    · rintro ⟨member, none⟩
      exact ⟨n, member, by rw [List.count_eq_zero.mpr none]; rfl⟩
  have fresh : n ∉ done ++ s.queue := by
    intro ready
    exact ((counted.exact n).mp ready).2 List.mem_cons_self
  by_cases last : n ∈ nodes ∧ n ∉ left
  · have queue : (s.release n).queue = s.queue ++ [n] := if_pos (waits.mpr last)
    refine ⟨degrees, ?_, ?_⟩
    · rw [queue, ← List.append_assoc]
      exact List.nodup_append_comm.mp (List.nodup_cons.mpr ⟨fresh, counted.distinct⟩)
    · intro m
      rw [queue, ← List.append_assoc, List.mem_append, counted.exact, List.mem_singleton,
        List.mem_cons]
      constructor
      · rintro (⟨member, none⟩ | rfl)
        · exact ⟨member, fun inside => none (.inr inside)⟩
        · exact last
      · rintro ⟨member, none⟩
        by_cases same : m = n
        · exact .inr same
        · exact .inl ⟨member, not_or.mpr ⟨same, none⟩⟩
  · have queue : (s.release n).queue = s.queue := if_neg fun given => last (waits.mp given)
    refine ⟨degrees, queue ▸ counted.distinct, ?_⟩
    intro m
    rw [queue, counted.exact, List.mem_cons, not_or]
    constructor
    · rintro ⟨member, _, none⟩
      exact ⟨member, none⟩
    · rintro ⟨member, none⟩
      refine ⟨member, ?_, none⟩
      rintro rfl
      exact last ⟨member, none⟩

theorem Counted.releases {targets : List Int} (counted : Counted nodes done (targets ++ left) s) :
    Counted nodes done left (targets.foldl Sorting.release s) := by
  induction targets generalizing s with
  | nil => exact counted
  | cons n rest ih => exact ih counted.release

theorem visited_releases (s : Sorting) (targets : List Int) :
    (targets.foldl release s).visited = s.visited := by
  induction targets generalizing s with
  | nil => rfl
  | cons n rest ih => exact ih (s.release n)

/-! ## 2. Turns -/

/-- The turn of a node releases the edges from it. -/
theorem unreleased_perm {n : Int} (fresh : n ∉ done) :
    (unreleased edges done).Perm
      (Reach.successors edges n ++ unreleased edges (done ++ [n])) := by
  have own : (edges.filter fun e => !done.contains e.1).filter (·.1 == n) =
      edges.filter (·.1 == n) := by
    rw [List.filter_filter]
    refine List.filter_congr fun e _ => ?_
    by_cases same : e.1 = n <;> simp [same, fresh]
  have others : (edges.filter fun e => !done.contains e.1).filter (fun e => !(e.1 == n)) =
      edges.filter fun e => !(done ++ [n]).contains e.1 := by
    rw [List.filter_filter]
    refine List.filter_congr fun e _ => ?_
    by_cases same : e.1 = n <;> simp [same]
  have parts := List.filter_append_perm (fun e : Int × Int => e.1 == n)
    (edges.filter fun e => !done.contains e.1)
  rw [own, others] at parts
  have ends := parts.symm.map (·.2)
  rwa [List.map_append] at ends

theorem mem_unreleased {n : Int} :
    n ∈ unreleased edges done ↔ ∃ m, m ∉ done ∧ (m, n) ∈ edges := by
  simp [unreleased, and_comm]

/-- A node that waits has predecessors that have had their turn, and no others. -/
theorem Sorted.founded_queue (sorted : Sorted edges nodes done s) {n : Int}
    (waiting : n ∈ s.queue) : Acc (Edge edges) n := by
  refine .intro n fun m edge => sorted.founded m ?_
  by_contra other
  have free := ((sorted.exact n).mp (List.mem_append_right _ waiting)).2
  exact free (mem_unreleased.mpr ⟨m, other, edge⟩)

theorem Sorted.step {n : Int} {rest : List Int} (sorted : Sorted edges nodes done s)
    (queue : s.queue = n :: rest) : Sorted edges nodes (done ++ [n]) (s.step edges) := by
  have split : done ++ s.queue = (done ++ [n]) ++ rest := by
    rw [queue, List.append_assoc]
    rfl
  have fresh : n ∉ done := by
    have distinct := sorted.distinct
    rw [queue] at distinct
    intro member
    exact (List.nodup_append.mp distinct).2.2 n member n List.mem_cons_self rfl
  have turn : s.step edges = (Reach.successors edges n).foldl Sorting.release
      { s with queue := rest, visited := s.visited + 1 } := by
    unfold Sorting.step
    rw [queue]
  have taken : Counted nodes (done ++ [n]) (unreleased edges done)
      { s with queue := rest, visited := s.visited + 1 } :=
    ⟨sorted.degrees, split ▸ sorted.distinct, fun m => split ▸ sorted.exact m⟩
  rw [turn]
  refine ⟨(taken.perm (unreleased_perm fresh)).releases, ?_, ?_⟩
  · rw [visited_releases, List.length_append]
    exact congrArg (· + 1) sorted.visited
  · intro m member
    rcases List.mem_append.mp member with before | now
    · exact sorted.founded m before
    · obtain rfl := List.mem_singleton.mp now
      exact sorted.founded_queue (queue ▸ List.mem_cons_self)

theorem Sorted.start (edges : List (Int × Int)) (distinct : nodes.Nodup) :
    Sorted edges nodes [] (Sorting.start edges nodes) := by
  have all : unreleased edges [] = edges.map (·.2) := by simp [unreleased]
  have degree : ∀ n : Int, edges.countP (·.2 == n) = (edges.map (·.2)).count n := by
    intro n
    rw [List.count, List.countP_map]
    rfl
  have queue : (Sorting.start edges nodes).queue =
      nodes.filter fun n => (edges.map (·.2)).count n == 0 := by
    unfold Sorting.start
    simp only [degree, List.filter_map, List.map_map]
    refine (List.map_id _).trans (List.filter_congr fun n _ => ?_)
    rw [Bool.eq_iff_iff]
    simp
  refine ⟨⟨?_, ?_, ?_⟩, rfl, fun n none => absurd none List.not_mem_nil⟩
  · rw [all]
    exact List.map_congr_left fun n _ => by rw [degree]
  · rw [List.nil_append, queue]
    exact distinct.filter _
  · intro n
    rw [List.nil_append, queue, all, List.mem_filter, beq_iff_eq, List.count_eq_zero]

theorem Sorted.run (sorted : Sorted edges nodes done s) :
    ∃ done', Sorted edges nodes done' (s.run edges) := by
  fun_induction Sorting.run edges s generalizing done with
  | case1 s empty => exact ⟨done, sorted⟩
  | case2 s waiting ih =>
    obtain ⟨n, rest, queue⟩ := List.exists_cons_of_ne_nil waiting
    exact ih (sorted.step queue)

/-- When all turns have been taken no node waits. -/
theorem queue_run (edges : List (Int × Int)) (s : Sorting) : (s.run edges).queue = [] := by
  fun_induction Sorting.run edges s with
  | case1 s empty => exact empty
  | case2 s waiting ih => exact ih

/-! ## 3. The number of turns -/

theorem visited_step (waiting : s.queue ≠ []) : (s.step edges).visited = s.visited + 1 := by
  obtain ⟨n, rest, queue⟩ := List.exists_cons_of_ne_nil waiting
  unfold step
  rw [queue]
  exact visited_releases _ _

/-- The turns go on as long as some node waits, and each of them is counted. -/
theorem run_eq_iterate (edges : List (Int × Int)) (s : Sorting) :
    ∃ rounds, s.run edges = (step edges)^[rounds] s ∧
      (∀ k < rounds, ((step edges)^[k] s).queue ≠ []) ∧
      (s.run edges).visited = s.visited + rounds := by
  fun_induction run edges s with
  | case1 s empty => exact ⟨0, rfl, fun k less => absurd less (Nat.not_lt_zero k), rfl⟩
  | case2 s waiting ih =>
    obtain ⟨rounds, same, before, visited⟩ := ih
    refine ⟨rounds + 1, same, ?_, ?_⟩
    · intro k less
      cases k with
      | zero => exact waiting
      | succ k => exact before k (Nat.lt_of_succ_lt_succ less)
    · rw [visited, visited_step waiting, Nat.add_assoc, Nat.add_comm 1]

theorem Sorted.done_subset (sorted : Sorted edges nodes done s) : done ⊆ nodes :=
  fun n member => ((sorted.exact n).mp (List.mem_append_left _ member)).1

theorem Sorted.done_subperm (sorted : Sorted edges nodes done s) : done.Subperm nodes :=
  (List.Nodup.of_append_left sorted.distinct).subperm sorted.done_subset

/-- Every node has one turn at most. -/
theorem visited_run_le (distinct : nodes.Nodup) :
    ((start edges nodes).run edges).visited ≤ nodes.length := by
  obtain ⟨done, sorted⟩ := (Sorted.start edges distinct).run
  rw [sorted.visited]
  exact sorted.done_subperm.length_le

theorem length_degrees_run (distinct : nodes.Nodup) :
    ((start edges nodes).run edges).degrees.length = nodes.length := by
  obtain ⟨done, sorted⟩ := (Sorted.start edges distinct).run
  rw [sorted.degrees, List.length_map]

/-! ## 4. Cycles -/

/-- Nodes that have predecessors among themselves contain a cycle, if there is any of them and they
are finitely many. -/
theorem exists_cycle_of_closed {set : List Int} (closed : ∀ n ∈ set, ∃ m ∈ set, (m, n) ∈ edges)
    {n : Int} (member : n ∈ set) : ∃ a, TransGen (Edge edges) a a := by
  by_contra acyclic
  let before (a b : { a // a ∈ set }) : Prop := TransGen (Edge edges) a.1 b.1
  have : Finite { a // a ∈ set } := set.finite_toSet
  have : IsTrans _ before := ⟨fun _ _ _ => TransGen.trans⟩
  have : Std.Irrefl before := ⟨fun a cycle => acyclic ⟨a.1, cycle⟩⟩
  have founded : WellFounded before := Finite.wellFounded_of_trans_of_irrefl before
  -- the first of the nodes has a predecessor, which comes before it
  obtain ⟨⟨a, here⟩, _, first⟩ := founded.has_min Set.univ ⟨⟨n, member⟩, trivial⟩
  obtain ⟨b, there, edge⟩ := closed a here
  exact first ⟨b, there⟩ trivial (.single edge)

/-- A node from which every path backwards ends is on no cycle. -/
theorem not_cycle_of_acc {r : Int → Int → Prop} {a : Int} (founded : Acc r a) :
    ¬ TransGen r a a := by
  induction founded with
  | intro a _ ih =>
    intro cycle
    obtain ⟨b, path, edge⟩ := TransGen.tail'_iff.mp cycle
    exact ih b edge (.head' edge path)

/-- Some node has no turn exactly when there is a cycle, if all edges start among the nodes. -/
theorem visited_ne_iff (distinct : nodes.Nodup) (starts : ∀ a b, (a, b) ∈ edges → a ∈ nodes) :
    ((start edges nodes).run edges).visited ≠ nodes.length ↔ ∃ a, TransGen (Edge edges) a a := by
  obtain ⟨done, sorted⟩ := (Sorted.start edges distinct).run
  have exact : ∀ n, n ∈ done ↔ n ∈ nodes ∧ n ∉ unreleased edges done := by
    intro n
    rw [← sorted.exact, queue_run, List.append_nil]
  rw [sorted.visited]
  constructor
  · intro short
    obtain ⟨n, member, late⟩ : ∃ n ∈ nodes, n ∉ done := by
      by_contra all
      push Not at all
      exact short (Nat.le_antisymm sorted.done_subperm.length_le (distinct.subperm all).length_le)
    -- the nodes without a turn have predecessors among themselves
    have closed : ∀ b ∈ nodes.filter (fun m => !done.contains m),
        ∃ a ∈ nodes.filter (fun m => !done.contains m), (a, b) ∈ edges := by
      intro b inside
      obtain ⟨listed, behind⟩ := List.mem_filter.mp inside
      have kept : b ∈ unreleased edges done := by
        by_contra free
        have turn := (exact b).mpr ⟨listed, free⟩
        simp [turn] at behind
      obtain ⟨a, other, edge⟩ := mem_unreleased.mp kept
      exact ⟨a, List.mem_filter.mpr ⟨starts a b edge, by simpa using other⟩, edge⟩
    exact exists_cycle_of_closed closed (List.mem_filter.mpr ⟨member, by simpa using late⟩)
  · rintro ⟨a, cycle⟩ full
    have all := sorted.done_subperm.perm_of_length_le (Nat.le_of_eq full.symm)
    obtain ⟨b, edge, _⟩ := TransGen.head'_iff.mp cycle
    exact not_cycle_of_acc (sorted.founded a (all.mem_iff.mpr (starts a b edge))) cycle

end Sorting

end Landform
