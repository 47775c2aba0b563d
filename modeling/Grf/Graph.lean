namespace Grf

/-- A graph as the list of its edges, in the order in which they were drawn. An edge that was
drawn twice is there twice. -/
structure Graph (α : Type) where
  edges : List (α × α) := []

namespace Graph

variable {α : Type} [DecidableEq α]

/-- The ends of the edges that leave `n`, in order. -/
def targets (g : Graph α) (n : α) : List α :=
  g.edges.filterMap fun edge => if edge.1 = n then some edge.2 else none

/-- How many edges leave nodes that are not in `seen`. -/
def fresh (g : Graph α) (seen : List α) : Nat :=
  g.edges.countP fun edge => edge.1 ∉ seen

theorem fresh_congr {g : Graph α} {seen marked : List α} (same : ∀ n, n ∈ seen ↔ n ∈ marked) :
    g.fresh seen = g.fresh marked := by
  simp only [fresh, same]

/-- Marking a new node uses up the edges that leave it. -/
theorem fresh_cons {g : Graph α} {seen : List α} {n : α} (new : n ∉ seen) :
    (g.targets n).length + g.fresh (n :: seen) = g.fresh seen := by
  unfold targets fresh
  induction g.edges with
  | nil => rfl
  | cons edge rest ih =>
    by_cases leaves : edge.1 = n
    · simp [leaves, new] at ih ⊢
      omega
    · by_cases marked : edge.1 ∈ seen
      · simpa [leaves, marked] using ih
      · simp [leaves, marked] at ih ⊢
        omega

/-- Adds to `seen` all nodes that the pending ones reach through nodes not seen before. -/
def reachFrom (g : Graph α) (pending seen : List α) : List α :=
  match pending with
  | [] => seen
  | n :: rest =>
    if n ∈ seen then g.reachFrom rest seen
    else g.reachFrom (g.targets n ++ rest) (n :: seen)
termination_by pending.length + g.fresh seen
decreasing_by
  · simp
  · rename_i new
    have used := g.fresh_cons new
    simp only [List.length_append, List.length_cons]
    omega

/-- Everything that can be reached from the given nodes, those nodes included. -/
def reach (g : Graph α) (roots : List α) : List α :=
  g.reachFrom roots []

/-- The work left on the path of a depth-first search: its nodes, and twice the edges still to be
followed from them. -/
def pathWork : List (α × List α) → Nat
  | [] => 0
  | step :: rest => 2 * step.2.length + 1 + pathWork rest

/-- The work left in a depth-first search: that on the path, and that of the nodes that were not
met yet. -/
def searchWork (g : Graph α) (path : List (α × List α)) (done : List α) : Nat :=
  pathWork path + 2 * g.fresh (path.map (·.1) ++ done)

/-- Depth-first search. The path leads from the node that is being searched back to the start,
each node with the edges still to be followed; `done` holds the nodes that were searched to the
end. An edge back to the path closes a cycle, and its end is the answer. -/
def search (g : Graph α) (path : List (α × List α)) (done : List α) : Except α (List α) :=
  match path with
  | [] => .ok done
  | (n, []) :: rest => g.search rest (n :: done)
  | (n, m :: others) :: rest =>
    if m ∈ n :: rest.map (·.1) then .error m
    else if m ∈ done then g.search ((n, others) :: rest) done
    else g.search ((m, g.targets m) :: (n, others) :: rest) done
termination_by g.searchWork path done
decreasing_by
  · have same : g.fresh (rest.map (·.1) ++ n :: done) = g.fresh (n :: (rest.map (·.1) ++ done)) :=
      fresh_congr fun k => by
        simp only [List.mem_append, List.mem_cons]
        exact or_left_comm
    simp only [searchWork, pathWork, List.map_cons, List.cons_append, same]
    simp
  · simp only [searchWork, pathWork, List.map_cons, List.length_cons]
    omega
  · rename_i offPath notDone
    have new : m ∉ n :: (rest.map (·.1) ++ done) := by
      simp only [List.mem_cons, List.mem_append, not_or] at offPath notDone ⊢
      exact ⟨offPath.1, offPath.2, notDone⟩
    have used := g.fresh_cons new
    simp only [searchWork, pathWork, List.map_cons, List.length_cons, List.cons_append]
    omega

/-- Searches from each of the given nodes in turn for a node on a cycle. -/
def cycleFrom? (g : Graph α) : List α → List α → Option α
  | [], _ => none
  | n :: rest, done =>
    if n ∈ done then g.cycleFrom? rest done
    else
      match g.search [(n, g.targets n)] done with
      | .error m => some m
      | .ok done => g.cycleFrom? rest done

/-- The first node found on a cycle that the given nodes reach. -/
def cycle? (g : Graph α) (starts : List α) : Option α :=
  g.cycleFrom? starts []

end Graph

end Grf
