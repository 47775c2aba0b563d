import Grf.Ledger
import Grf.Proofs.Reach
import Mathlib.Data.List.Chain

namespace Grf.Graph

variable {α : Type} {g : Graph α}

/-- Nodes that were searched to the end: their edges stay among them, and none lies on a cycle. -/
def Settled (g : Graph α) (done : List α) : Prop :=
  ∀ n ∈ done, (∀ m, g.Edge n m → m ∈ done) ∧ ¬ g.OnCycle n

/-- Every edge that leaves a node of the path is still to be followed, or ends at a node that is
done, or was taken to the node above, which is `child` for the first node of the path. -/
def Covered (g : Graph α) (done : List α) : Option α → List (α × List α) → Prop
  | _, [] => True
  | child, (n, others) :: rest =>
    (∀ m, g.Edge n m → m ∈ others ∨ m ∈ done ∨ child = some m) ∧ Covered g done (some n) rest

/-- What holds of the path and of the finished nodes throughout a search from `start`. -/
structure Trail (g : Graph α) (start : α) (path : List (α × List α)) (done : List α) : Prop where
  linked : (path.map Prod.fst).IsChain fun n parent => g.Edge parent n
  started : ∀ n ∈ path.map Prod.fst, g.Path start n
  drawn : ∀ step ∈ path, ∀ m ∈ step.2, g.Edge step.1 m
  covered : Covered g done none path
  distinct : (path.map Prod.fst).Nodup
  unfinished : ∀ n ∈ path.map Prod.fst, n ∉ done

theorem Settled.nil : Settled g [] := by
  simp [Settled]

theorem Settled.mem_of_path {done : List α} (settled : Settled g done) {n m : α}
    (member : n ∈ done) (path : g.Path n m) : m ∈ done :=
  path.mem_of_closed (fun k inside => (settled k inside).1) member

/-- A node that is not done yet can be added once all its edges lead to finished nodes. -/
theorem Settled.cons {done : List α} (settled : Settled g done) {n : α} (new : n ∉ done)
    (closed : ∀ m, g.Edge n m → m ∈ done) : Settled g (n :: done) := by
  intro k member
  rcases List.mem_cons.mp member with same | old
  · subst same
    refine ⟨fun m edge => List.mem_cons_of_mem _ (closed m edge), ?_⟩
    intro cycle
    obtain ⟨m, edge, back⟩ := Relation.TransGen.head'_iff.mp cycle
    exact new (settled.mem_of_path (closed m edge) back)
  · refine ⟨fun m edge => List.mem_cons_of_mem _ ((settled k old).1 m edge), (settled k old).2⟩

theorem Covered.mono {done more : List α} (grows : done ⊆ more) {child : Option α}
    {path : List (α × List α)} (covered : Covered g done child path) :
    Covered g more child path := by
  induction path generalizing child with
  | nil => trivial
  | cons step rest ih =>
    refine ⟨?_, ih covered.2⟩
    intro m edge
    rcases covered.1 m edge with waits | finished | taken
    · exact Or.inl waits
    · exact Or.inr (Or.inl (grows finished))
    · exact Or.inr (Or.inr taken)

/-- Finishing the node that the path led to. -/
theorem Covered.finish {done : List α} {n : α} {path : List (α × List α)}
    (covered : Covered g done (some n) path) : Covered g (n :: done) none path := by
  cases path with
  | nil => trivial
  | cons step rest =>
    refine ⟨?_, covered.2.mono (List.subset_cons_self n done)⟩
    intro m edge
    rcases covered.1 m edge with waits | finished | taken
    · exact Or.inl waits
    · exact Or.inr (Or.inl (List.mem_cons_of_mem _ finished))
    · cases taken
      exact Or.inr (Or.inl List.mem_cons_self)

/-- Every node of a path leads to the first one. -/
theorem path_to_head {n m : α} {rest : List α}
    (linked : (n :: rest).IsChain fun n parent => g.Edge parent n) (member : m ∈ n :: rest) :
    g.Path m n := by
  induction rest generalizing n with
  | nil =>
    rw [List.mem_singleton.mp member]
    exact Path.refl n
  | cons parent rest ih =>
    obtain ⟨edge, above⟩ := List.isChain_cons_cons.mp linked
    rcases List.mem_cons.mp member with same | older
    · rw [same]
      exact Path.refl n
    · exact (ih above older).tail edge

namespace Trail

variable {start n m : α} {others done : List α} {rest : List (α × List α)}

/-- An edge back to the path closes a cycle. -/
theorem onCycle (trail : Trail g start ((n, m :: others) :: rest) done)
    (back : m ∈ n :: rest.map Prod.fst) : g.Path start m ∧ g.OnCycle m := by
  have edge := trail.drawn _ List.mem_cons_self m List.mem_cons_self
  exact ⟨trail.started m back, Relation.TransGen.tail' (path_to_head trail.linked back) edge⟩

theorem finish (trail : Trail g start ((n, []) :: rest) done) (settled : Settled g done) :
    Trail g start rest (n :: done) ∧ Settled g (n :: done) := by
  have new : n ∉ done := trail.unfinished n List.mem_cons_self
  have closed : ∀ m, g.Edge n m → m ∈ done := by
    intro m edge
    rcases trail.covered.1 m edge with waits | finished | taken
    · exact absurd waits List.not_mem_nil
    · exact finished
    · cases taken
  obtain ⟨apart, distinct⟩ := List.nodup_cons.mp trail.distinct
  refine ⟨?_, settled.cons new closed⟩
  exact
    { linked := trail.linked.tail
      started := fun k member => trail.started k (List.mem_cons_of_mem _ member)
      drawn := fun step member => trail.drawn step (List.mem_cons_of_mem _ member)
      covered := trail.covered.2.finish
      distinct := distinct
      unfinished := by
        intro k member finished
        rcases List.mem_cons.mp finished with same | old
        · exact apart (same ▸ member)
        · exact trail.unfinished k (List.mem_cons_of_mem _ member) old }

theorem drawn_after (trail : Trail g start ((n, m :: others) :: rest) done) :
    ∀ step ∈ (n, others) :: rest, ∀ k ∈ step.2, g.Edge step.1 k := by
  intro step member k waits
  rcases List.mem_cons.mp member with same | older
  · subst same
    exact trail.drawn _ List.mem_cons_self k (List.mem_cons_of_mem _ waits)
  · exact trail.drawn step (List.mem_cons_of_mem _ older) k waits

theorem skip (trail : Trail g start ((n, m :: others) :: rest) done) (finished : m ∈ done) :
    Trail g start ((n, others) :: rest) done where
  linked := trail.linked
  started := trail.started
  drawn := trail.drawn_after
  covered := by
    refine ⟨?_, trail.covered.2⟩
    intro k edge
    rcases trail.covered.1 k edge with waits | old | taken
    · rcases List.mem_cons.mp waits with same | later
      · exact Or.inr (Or.inl (same ▸ finished))
      · exact Or.inl later
    · exact Or.inr (Or.inl old)
    · exact Or.inr (Or.inr taken)
  distinct := trail.distinct
  unfinished := trail.unfinished

theorem enter [DecidableEq α] (trail : Trail g start ((n, m :: others) :: rest) done)
    (offPath : m ∉ n :: rest.map Prod.fst) (new : m ∉ done) :
    Trail g start ((m, g.targets m) :: (n, others) :: rest) done := by
  have edge : g.Edge n m := trail.drawn _ List.mem_cons_self m List.mem_cons_self
  exact
    { linked := List.isChain_cons_cons.mpr ⟨edge, trail.linked⟩
      started := by
        intro k member
        rcases List.mem_cons.mp member with same | older
        · subst same
          exact (trail.started n List.mem_cons_self).tail edge
        · exact trail.started k older
      drawn := by
        intro step member k waits
        rcases List.mem_cons.mp member with first | older
        · subst first
          exact mem_targets.mp waits
        · exact trail.drawn_after step older k waits
      covered := by
        refine ⟨fun k edge => Or.inl (mem_targets.mpr edge), ?_, trail.covered.2⟩
        intro k edge
        rcases trail.covered.1 k edge with waits | old | taken
        · rcases List.mem_cons.mp waits with same | later
          · exact Or.inr (Or.inr (congrArg some same.symm))
          · exact Or.inl later
        · exact Or.inr (Or.inl old)
        · cases taken
      distinct := List.nodup_cons.mpr ⟨offPath, trail.distinct⟩
      unfinished := by
        intro k member
        rcases List.mem_cons.mp member with same | older
        · exact same ▸ new
        · exact trail.unfinished k older }

end Trail

variable [DecidableEq α]

theorem Trail.begin {n : α} {done : List α} (new : n ∉ done) :
    Trail g n [(n, g.targets n)] done where
  linked := List.isChain_singleton n
  started := by
    intro k member
    rw [List.mem_singleton.mp member]
    exact Path.refl n
  drawn := by
    intro step member m waits
    rw [List.mem_singleton.mp member] at waits ⊢
    exact mem_targets.mp waits
  covered := ⟨fun m edge => Or.inl (mem_targets.mpr edge), trivial⟩
  distinct := by simp
  unfinished := by
    intro k member
    rw [List.mem_singleton.mp member]
    exact new

/-- A search that fails has found a node on a cycle. One that succeeds has finished the whole path,
and has kept what was finished before. -/
theorem search_spec {start : α} {path : List (α × List α)} {done : List α}
    (trail : Trail g start path done) (settled : Settled g done) :
    (∀ m, g.search path done = .error m → g.Path start m ∧ g.OnCycle m) ∧
      ∀ after, g.search path done = .ok after →
        Settled g after ∧ done ⊆ after ∧ path.map Prod.fst ⊆ after := by
  fun_induction search g path done with
  | case1 done =>
    refine ⟨by simp, ?_⟩
    intro after result
    cases result
    exact ⟨settled, List.Subset.refl _, List.nil_subset _⟩
  | case2 done n rest ih =>
    obtain ⟨trailRest, settledNext⟩ := trail.finish settled
    obtain ⟨failed, succeeded⟩ := ih trailRest settledNext
    refine ⟨failed, ?_⟩
    intro after result
    obtain ⟨settledAfter, kept, finished⟩ := succeeded after result
    obtain ⟨atHead, kept⟩ := List.cons_subset.mp kept
    exact ⟨settledAfter, kept, List.cons_subset.mpr ⟨atHead, finished⟩⟩
  | case3 done n m others rest back =>
    refine ⟨?_, by simp⟩
    intro k result
    cases result
    exact trail.onCycle back
  | case4 done n m others rest _ finished ih => exact ih (trail.skip finished) settled
  | case5 done n m others rest offPath new ih =>
    obtain ⟨failed, succeeded⟩ := ih (trail.enter offPath new) settled
    refine ⟨failed, ?_⟩
    intro after result
    obtain ⟨settledAfter, kept, finished⟩ := succeeded after result
    exact ⟨settledAfter, kept, (List.cons_subset.mp finished).2⟩

/-- The colours are shared by the searches from all starts: what one has finished, the next ones
do not enter again. -/
theorem cycleFrom?_spec {starts done : List α} (settled : Settled g done) :
    (g.cycleFrom? starts done = none → ∀ n ∈ starts, ∀ m, g.Path n m → ¬ g.OnCycle m) ∧
      ∀ m, g.cycleFrom? starts done = some m → g.OnCycle m ∧ ∃ n ∈ starts, g.Path n m := by
  induction starts generalizing done with
  | nil => simp [cycleFrom?]
  | cons n rest ih =>
    have harmless {after : List α} (settled : Settled g after) (finished : n ∈ after) {m : α}
        (path : g.Path n m) : ¬ g.OnCycle m :=
      (settled m (settled.mem_of_path finished path)).2
    have extend {m : α} (found : g.OnCycle m ∧ ∃ k ∈ rest, g.Path k m) :
        g.OnCycle m ∧ ∃ k ∈ n :: rest, g.Path k m := by
      obtain ⟨cycle, k, member, path⟩ := found
      exact ⟨cycle, k, List.mem_cons_of_mem _ member, path⟩
    unfold cycleFrom?
    split
    · rename_i finished
      refine ⟨?_, fun m result => extend ((ih settled).2 m result)⟩
      intro result
      exact List.forall_mem_cons.mpr ⟨fun m path => harmless settled finished path,
        (ih settled).1 result⟩
    · rename_i new
      obtain ⟨failed, succeeded⟩ := search_spec (Trail.begin new) settled
      split
      · rename_i m result
        obtain ⟨path, cycle⟩ := failed m result
        refine ⟨by simp, ?_⟩
        intro k same
        cases same
        exact ⟨cycle, n, List.mem_cons_self, path⟩
      · rename_i after result
        obtain ⟨settledAfter, _, finished⟩ := succeeded after result
        refine ⟨?_, fun m result => extend ((ih settledAfter).2 m result)⟩
        intro result
        exact List.forall_mem_cons.mpr
          ⟨fun m path => harmless settledAfter (finished List.mem_cons_self) path,
            (ih settledAfter).1 result⟩

theorem cycle?_eq_none_iff {starts : List α} :
    g.cycle? starts = none ↔ ∀ n ∈ starts, ∀ m, g.Path n m → ¬ g.OnCycle m := by
  constructor
  · exact (cycleFrom?_spec Settled.nil).1
  · intro acyclic
    cases result : g.cycle? starts with
    | none => rfl
    | some m =>
      obtain ⟨cycle, n, member, path⟩ := (cycleFrom?_spec Settled.nil).2 m result
      exact absurd cycle (acyclic n member m path)

theorem onCycle_of_cycle? {starts : List α} {m : α} (found : g.cycle? starts = some m) :
    g.OnCycle m :=
  ((cycleFrom?_spec Settled.nil).2 m found).1

end Grf.Graph

namespace Grf.Ledger

theorem checkCycles_eq_ok {ledger : Ledger} :
    ledger.checkCycles = .ok () ↔ ∀ n ∈ ledger.nodes, ∀ m,
      ledger.references.Path n m → ¬ ledger.references.OnCycle m := by
  rw [← Graph.cycle?_eq_none_iff]
  unfold checkCycles
  cases ledger.references.cycle? ledger.nodes <;> simp

/-- The check passes exactly when no defined node reaches a cycle of references. When it fails, the
error tells the kind, name and place of a node that lies on a cycle. -/
theorem checkCycles_exact (ledger : Ledger) :
    (ledger.checkCycles = .ok () ↔
      ¬ ∃ n ∈ ledger.nodes, ∃ m, ledger.references.Path n m ∧ ledger.references.OnCycle m) ∧
    ∀ failure, ledger.checkCycles = .error failure →
      ∃ error n, failure = .script error ∧ error.kind = .selfInclusion ∧
        error.cause = .blockLoop n.kind n.name.name ∧ error.position = n.name.position ∧
        ledger.references.OnCycle n := by
  have passes : ledger.checkCycles = .ok () ↔ ledger.references.cycle? ledger.nodes = none := by
    unfold checkCycles
    cases ledger.references.cycle? ledger.nodes <;> simp
  refine ⟨?_, ?_⟩
  · rw [passes, Graph.cycle?_eq_none_iff]
    push Not
    rfl
  · intro failure failed
    unfold checkCycles at failed
    split at failed
    · rename_i n found
      cases failed
      exact ⟨_, n, rfl, rfl, rfl, rfl, Graph.onCycle_of_cycle? found⟩
    · cases failed

end Grf.Ledger
