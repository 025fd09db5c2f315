import Landform.Graph.Wiring

/-!
# Reachability

`closure` lists the nodes that can be reached from some nodes along a successor function. It keeps
the nodes not seen so far, and each step sees the first of them among the nodes still to visit. The
search for a path goes deep, and the search for all that feeds a node goes wide.
-/

namespace Landform

namespace Reach

theorem mem_of_dropWhile_eq_cons {unseen waiting rest : List Int} {n : Int}
    (found : waiting.dropWhile (fun a => !unseen.contains a) = n :: rest) : n ∈ unseen := by
  have head := List.head?_dropWhile_not (fun a => !unseen.contains a) waiting
  rw [found] at head
  simpa using head

/-- The nodes to visit next: the successors of a node come first in a search that goes deep, and
last in one that goes wide. -/
def upcoming (wide : Bool) (successors rest : List Int) : List Int :=
  if wide then rest ++ successors else successors ++ rest

@[simp]
theorem mem_upcoming {wide : Bool} {successors rest : List Int} {n : Int} :
    n ∈ upcoming wide successors rest ↔ n ∈ successors ∨ n ∈ rest := by
  cases wide <;> simp [upcoming, or_comm]

/-- The nodes of `unseen` that can be reached from `waiting` by nodes of `unseen`. -/
def closure (wide : Bool) (next : Int → List Int) (unseen waiting : List Int) : List Int :=
  match _found : waiting.dropWhile (fun a => !unseen.contains a) with
  | [] => []
  | n :: rest => n :: closure wide next (unseen.erase n) (upcoming wide (next n) rest)
termination_by unseen.length
decreasing_by
  have member := mem_of_dropWhile_eq_cons _found
  rw [List.length_erase_of_mem member]
  have := List.length_pos_of_mem member
  omega

/-- The ends of the edges that start at a node. -/
def successors (edges : List (Int × Int)) (n : Int) : List Int :=
  (edges.filter (·.1 == n)).map (·.2)

end Reach

namespace Graph

/-- Whether a path of the edges in the tables leads from one node to another. -/
def reaches (g : Graph) (start target : Int) : Bool :=
  (Reach.closure false (Reach.successors g.tables.downstream) g.ids [start]).contains target

/-- The nodes from which a node is fed, itself included. -/
def feeding (g : Graph) (id : Int) : List Int :=
  let w := g.wiring
  let sources (n : Int) : List Int :=
    match g.node? n with
    | none => []
    | some node => node.inputs.filterMap fun p => do
      let c ← w.incoming? p.id
      let source ← w.owner? c.source
      return source.id
  Reach.closure true sources g.ids [id]

end Graph

end Landform
