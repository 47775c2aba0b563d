import Grf.Graph
import Mathlib.Logic.Relation

namespace Grf.Graph

variable {α : Type} {g : Graph α}

/-- There is an edge from `a` to `b`, drawn once or more often. -/
def Edge (g : Graph α) (a b : α) : Prop :=
  (a, b) ∈ g.edges

/-- A path of edges, which may be empty. -/
def Path (g : Graph α) : α → α → Prop :=
  Relation.ReflTransGen g.Edge

/-- The node lies on a cycle: a path of at least one edge leads back to it. -/
def OnCycle (g : Graph α) (n : α) : Prop :=
  Relation.TransGen g.Edge n n

theorem Path.refl (n : α) : g.Path n n :=
  Relation.ReflTransGen.refl

theorem Path.head {a b c : α} (edge : g.Edge a b) (path : g.Path b c) : g.Path a c :=
  Relation.ReflTransGen.head edge path

theorem Path.tail {a b c : α} (path : g.Path a b) (edge : g.Edge b c) : g.Path a c :=
  Relation.ReflTransGen.tail path edge

/-- A set that no edge leaves holds all that its members reach. -/
theorem Path.mem_of_closed {s : List α} {a b : α} (path : g.Path a b)
    (closed : ∀ m ∈ s, ∀ k, g.Edge m k → k ∈ s) (member : a ∈ s) : b ∈ s := by
  induction path with
  | refl => exact member
  | tail _ edge ih => exact closed _ ih _ edge

/-- A path that starts in `seen` stays there or leaves it through `pending`, if all edges that
leave `seen` lead there. -/
theorem Path.mem_or_through {seen pending : List α} {a b : α} (path : g.Path a b)
    (closed : ∀ m ∈ seen, ∀ k, g.Edge m k → k ∈ seen ∨ k ∈ pending) (member : a ∈ seen) :
    b ∈ seen ∨ ∃ r ∈ pending, g.Path r b := by
  induction path with
  | refl => exact Or.inl member
  | @tail m k _ edge ih =>
    rcases ih with inside | ⟨r, waits, path⟩
    · rcases closed m inside k edge with stays | leaves
      · exact Or.inl stays
      · exact Or.inr ⟨k, leaves, Path.refl k⟩
    · exact Or.inr ⟨r, waits, path.tail edge⟩

variable [DecidableEq α]

theorem mem_targets {n m : α} : m ∈ g.targets n ↔ g.Edge n m := by
  simp only [targets, Edge, List.mem_filterMap, Option.ite_none_right_eq_some, Option.some.injEq]
  constructor
  · rintro ⟨⟨a, b⟩, drawn, rfl, rfl⟩
    exact drawn
  · intro drawn
    exact ⟨(n, m), drawn, rfl, rfl⟩

/-- The nodes met by the search: those seen before and all that the pending ones reach. The edges
that leave seen nodes are accounted for by `closed`, so nodes on cycles are no exception. -/
theorem mem_reachFrom {pending seen : List α} {n : α}
    (closed : ∀ m ∈ seen, ∀ k, g.Edge m k → k ∈ seen ∨ k ∈ pending) :
    n ∈ g.reachFrom pending seen ↔ n ∈ seen ∨ ∃ r ∈ pending, g.Path r n := by
  fun_induction reachFrom g pending seen with
  | case1 seen => simp
  | case2 seen m rest known ih =>
    have closedRest : ∀ a ∈ seen, ∀ k, g.Edge a k → k ∈ seen ∨ k ∈ rest := by
      intro a inside k edge
      rcases closed a inside k edge with stays | leaves
      · exact Or.inl stays
      · rcases List.mem_cons.mp leaves with same | later
        · exact Or.inl (same ▸ known)
        · exact Or.inr later
    rw [ih closedRest]
    constructor
    · rintro (inside | ⟨r, waits, path⟩)
      · exact Or.inl inside
      · exact Or.inr ⟨r, List.mem_cons_of_mem _ waits, path⟩
    · rintro (inside | ⟨r, waits, path⟩)
      · exact Or.inl inside
      · rcases List.mem_cons.mp waits with same | later
        · exact path.mem_or_through closedRest (same ▸ known)
        · exact Or.inr ⟨r, later, path⟩
  | case3 seen m rest new ih =>
    have closedNext : ∀ a ∈ m :: seen, ∀ k, g.Edge a k →
        k ∈ m :: seen ∨ k ∈ g.targets m ++ rest := by
      intro a inside k edge
      rcases List.mem_cons.mp inside with same | old
      · subst same
        exact Or.inr (List.mem_append_left _ (mem_targets.mpr edge))
      · rcases closed a old k edge with stays | leaves
        · exact Or.inl (List.mem_cons_of_mem _ stays)
        · rcases List.mem_cons.mp leaves with first | later
          · exact Or.inl (first ▸ List.mem_cons_self)
          · exact Or.inr (List.mem_append_right _ later)
    rw [ih closedNext]
    constructor
    · rintro (inside | ⟨r, waits, path⟩)
      · rcases List.mem_cons.mp inside with same | old
        · exact Or.inr ⟨m, List.mem_cons_self, same ▸ Path.refl _⟩
        · exact Or.inl old
      · rcases List.mem_append.mp waits with target | later
        · exact Or.inr ⟨m, List.mem_cons_self, path.head (mem_targets.mp target)⟩
        · exact Or.inr ⟨r, List.mem_cons_of_mem _ later, path⟩
    · rintro (old | ⟨r, waits, path⟩)
      · exact Or.inl (List.mem_cons_of_mem _ old)
      · rcases List.mem_cons.mp waits with same | later
        · subst same
          exact path.mem_or_through closedNext List.mem_cons_self
        · exact Or.inr ⟨r, List.mem_append_right _ later, path⟩

/-- Exact reachability, on any graph. -/
theorem mem_reach {roots : List α} {n : α} :
    n ∈ g.reach roots ↔ ∃ r ∈ roots, g.Path r n := by
  rw [reach, mem_reachFrom (by simp)]
  simp

end Grf.Graph
