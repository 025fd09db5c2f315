import Landform.Counting
import Landform.Graph.Reach

/-!
# Topological sorting

The nodes of a graph take turns, each after all nodes that lead to it. The state counts, for each
node, the edges into it that have not been released; a turn releases the edges from its node, and a
node without any edge left goes to the queue. The nodes on a cycle never get there, so that the
graph has a cycle exactly when the queue is empty before every node has had its turn.
-/

namespace Landform

/-- The state of a topological sort. -/
structure Sorting where
  /-- Each node with the number of edges into it that have not been released. -/
  degrees : List (Int × Int)
  /-- The nodes that wait for their turn, the next one first. -/
  queue : List Int
  /-- How many nodes have had their turn. -/
  visited : Nat
deriving Repr, DecidableEq

namespace Sorting

/-- No edge has been released, and the nodes without any wait. -/
def start (edges : List (Int × Int)) (nodes : List Int) : Sorting :=
  let degrees := nodes.map fun n => (n, (edges.countP (·.2 == n) : Int))
  ⟨degrees, (degrees.filter (·.2 == 0)).map (·.1), 0⟩

/-- A node with one edge less, if it is the given one. -/
def lower (n : Int) (entry : Int × Int) : Int × Int :=
  if entry.1 == n then (entry.1, entry.2 - 1) else entry

/-- Releases an edge into a node; the node waits if it was the last one. -/
def release (s : Sorting) (n : Int) : Sorting :=
  let degrees := s.degrees.map (lower n)
  { s with
    degrees
    queue := if degrees.contains (n, 0) then s.queue ++ [n] else s.queue }

/-- The turn of the node that has waited longest. -/
def step (edges : List (Int × Int)) (s : Sorting) : Sorting :=
  match s.queue with
  | [] => s
  | n :: rest =>
    (Reach.successors edges n).foldl release { s with queue := rest, visited := s.visited + 1 }

/-- The nodes that wait, and those that may come to wait: a bound for the turns to come. -/
def pending (s : Sorting) : Nat :=
  s.degrees.countP (0 < ·.2) + s.queue.length

theorem pos_of_lower {n : Int} (entry : Int × Int)
    (positive : decide (0 < (lower n entry).2) = true) : decide (0 < entry.2) = true := by
  unfold lower at positive
  split at positive <;> simp only [decide_eq_true_eq] at positive ⊢
  · exact Int.lt_of_lt_of_le positive (Int.sub_le_self _ (by decide))
  · exact positive

/-- A number that falls to nothing was one before. -/
theorem eq_one_of_lower {n : Int} {entry : Int × Int} (fallen : lower n entry = (n, 0)) :
    entry = (n, 1) := by
  unfold lower at fallen
  split at fallen
  · obtain ⟨same, zero⟩ := Prod.mk.inj fallen
    exact Prod.ext same (Int.sub_eq_zero.mp zero)
  · next other => exact absurd (by rw [fallen]; exact beq_self_eq_true n) other

theorem pending_release_le (s : Sorting) (n : Int) : (s.release n).pending ≤ s.pending := by
  unfold pending release
  dsimp only
  rw [List.countP_map]
  split
  · next last =>
    -- the node comes to wait because its number has just fallen
    obtain ⟨entry, member, fallen⟩ := List.mem_map.mp (List.contains_iff_mem.mp last)
    obtain rfl := eq_one_of_lower fallen
    have fewer : s.degrees.countP ((fun e => decide (0 < e.2)) ∘ lower n) <
        s.degrees.countP (fun e => decide (0 < e.2)) :=
      countP_lt_countP member pos_of_lower rfl (by simp [fallen])
    rw [List.length_append, List.length_singleton]
    omega
  · exact Nat.add_le_add_right (List.countP_mono_left fun entry _ => pos_of_lower entry) _

theorem pending_releases_le (s : Sorting) (targets : List Int) :
    (targets.foldl release s).pending ≤ s.pending := by
  induction targets generalizing s with
  | nil => exact Nat.le_refl _
  | cons n rest ih => exact Nat.le_trans (ih (s.release n)) (s.pending_release_le n)

theorem pending_step_lt (edges : List (Int × Int)) {s : Sorting} (waiting : s.queue ≠ []) :
    (s.step edges).pending < s.pending := by
  unfold step
  split
  · next empty => exact absurd empty waiting
  · next n rest queue =>
    refine Nat.lt_of_le_of_lt (pending_releases_le _ _) ?_
    rw [pending, pending, queue]
    exact Nat.lt_succ_self _

/-- Takes turns until no node waits. -/
def run (edges : List (Int × Int)) (s : Sorting) : Sorting :=
  if _done : s.queue = [] then s else run edges (s.step edges)
termination_by s.pending
decreasing_by exact pending_step_lt edges _done

end Sorting

namespace Graph

/-- The topological sort of the nodes along the connections, before the first turn. -/
def sorting (g : Graph) : Sorting :=
  .start g.edges g.ids

/-- Whether the connections of a graph form a cycle: some nodes never have their turn. -/
def hasCycle (g : Graph) : Bool :=
  let sorted := g.sorting.run g.edges
  sorted.visited != sorted.degrees.length

end Graph

end Landform
