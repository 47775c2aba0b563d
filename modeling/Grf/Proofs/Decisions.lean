import Grf.Proofs.Operations

namespace Grf.Compilation

variable {c mid after : Compilation} {i j : Nat} {n : Node} {failure : Failure} {is : List Nat}

theorem prepare_none (none : c.node? i = none) : c.prepare i = (.ok true, c) := by
  simp only [prepare, none]

theorem prepare_some (found : c.node? i = some n) :
    c.prepare i = ((c.ledger.prepare n).used,
      { c with
        ledger := (c.ledger.prepare n).ledger
        log := (c.ledger.prepare n).warning.toList.foldl Log.warn c.log }) := by
  simp only [prepare, found, prepareNode_eq]

theorem prepare_congr (ledger : after.ledger = c.ledger) (node : after.node? i = c.node? i) :
    (after.prepare i).1 = (c.prepare i).1 := by
  cases found : c.node? i with
  | none => rw [prepare_none found, prepare_none (node.trans found)]
  | some n => rw [prepare_some found, prepare_some (node.trans found), ledger]

/-- The ledger has decided about the declaration, so preparing it once more changes nothing. -/
def Decided (c : Compilation) (i : Nat) : Prop :=
  ∀ n, c.node? i = some n →
    c.ledger.isPropagated = true ∧ ∃ used, c.ledger.prepared.lookup n = some used

theorem Decided.prepare_eq (decided : c.Decided i) : ∃ used, c.prepare i = (.ok used, c) := by
  cases found : c.node? i with
  | none => exact ⟨true, prepare_none found⟩
  | some n =>
    obtain ⟨propagated, used, known⟩ := decided n found
    refine ⟨used, ?_⟩
    rw [prepare_some found, Ledger.prepare_again propagated known]
    rfl

/-- All that may differ is the log and, by some changes, what is prepared and given out. -/
structure Progressed (c after : Compilation) : Prop where
  frame : ∃ prepared allocations log,
    after = { c with ledger := { c.ledger with prepared, allocations }, log }
  changes : Ledger.Changes c.ledger after.ledger

namespace Progressed

theorem refl (c : Compilation) : Progressed c c :=
  ⟨⟨c.ledger.prepared, c.ledger.allocations, c.log, rfl⟩, .refl⟩

theorem trans (first : Progressed c mid) (second : Progressed mid after) : Progressed c after := by
  refine ⟨?_, first.changes.trans second.changes⟩
  obtain ⟨_, _, _, rfl⟩ := first.frame
  obtain ⟨prepared, allocations, log, rfl⟩ := second.frame
  exact ⟨prepared, allocations, log, rfl⟩

theorem block? (progressed : Progressed c after) (i : Nat) : after.block? i = c.block? i := by
  obtain ⟨_, _, _, rfl⟩ := progressed.frame
  rfl

theorem node? (progressed : Progressed c after) (i : Nat) : after.node? i = c.node? i :=
  congrArg _ (progressed.block? i)

theorem decided (progressed : Progressed c after) (decided : c.Decided i) : after.Decided i := by
  intro n found
  rw [progressed.node?] at found
  obtain ⟨propagated, used, known⟩ := decided n found
  exact ⟨progressed.changes.isPropagated propagated, used, progressed.changes.lookup known⟩

end Progressed

theorem prepare_progressed (c : Compilation) (i : Nat) : Progressed c (c.prepare i).2 := by
  cases found : c.node? i with
  | none =>
    rw [prepare_none found]
    exact .refl c
  | some n =>
    rw [prepare_some found]
    refine ⟨?_, .single (c.ledger.prepare_change n)⟩
    obtain ⟨prepared, allocations, frame⟩ := c.ledger.prepare_frame n
    exact ⟨prepared, allocations, _, by rw [frame]⟩

theorem prepare_decides {used : Bool} (passed : (c.prepare i).1 = .ok used) :
    (c.prepare i).2.Decided i := by
  intro n atI
  have progressed := c.prepare_progressed i
  have found : c.node? i = some n := (progressed.node? i).symm.trans atI
  rw [prepare_some found] at passed progressed ⊢
  have propagated := progressed.changes.isPropagated (Ledger.propagated_of_prepare passed)
  exact ⟨propagated, used, Ledger.lookup_prepare passed⟩

theorem prepare_failed (failed : (c.prepare i).1 = .error failure) :
    c.prepare i = (.error failure, c) := by
  cases found : c.node? i with
  | none =>
    rw [prepare_none found] at failed
    cases failed
  | some n =>
    rw [prepare_some found] at failed ⊢
    rw [(Ledger.prepare_error failed).1]
    rfl

/-- Where preparations stop. The one that fails changes nothing. -/
theorem prepareEach_error (run : c.prepareEach is = (.error failure, after)) :
    ∃ before i rest, is = before ++ i :: rest ∧ c.prepareEach before = (.ok (), after) ∧
      after.prepare i = (.error failure, after) := by
  induction is generalizing c with
  | nil => cases run
  | cons i rest ih =>
    unfold prepareEach at run
    split at run
    · rename_i mid failed
      cases run
      have stays := prepare_failed (congrArg Prod.fst failed)
      cases failed.symm.trans stays
      exact ⟨[], i, rest, rfl, rfl, stays⟩
    · rename_i used mid passed
      obtain ⟨before, j, later, rfl, prepared, failed⟩ := ih run
      refine ⟨i :: before, j, later, rfl, ?_, failed⟩
      rw [prepareEach, passed]
      exact prepared

theorem prepareEach_progressed (c : Compilation) (is : List Nat) :
    Progressed c (c.prepareEach is).2 := by
  induction is generalizing c with
  | nil => exact .refl c
  | cons i rest ih =>
    have first := c.prepare_progressed i
    unfold prepareEach
    split
    · rename_i failure mid failed
      rwa [failed] at first
    · rename_i used mid passed
      rw [passed] at first
      exact first.trans (ih mid)

theorem prepareEach_decides (run : c.prepareEach is = (.ok (), after)) :
    ∀ i ∈ is, after.Decided i := by
  induction is generalizing c with
  | nil => simp
  | cons i rest ih =>
    unfold prepareEach at run
    split at run
    · cases run
    · rename_i used mid passed
      have decided := prepare_decides (congrArg Prod.fst passed)
      have progressed := mid.prepareEach_progressed rest
      rw [passed] at decided
      rw [run] at progressed
      exact List.forall_mem_cons.mpr ⟨progressed.decided decided, ih run⟩

/-- The first of the declarations that has no answer has this failure. -/
def FailsFirst {α : Type} (answer : Nat → Except Failure α) (is : List Nat) (failure : Failure) :
    Prop :=
  ∃ before i rest, is = before ++ i :: rest ∧ answer i = .error failure ∧
    ∀ j ∈ before, ∃ value, answer j = .ok value

namespace FailsFirst

variable {α : Type} {answer : Nat → Except Failure α} {value : α}

theorem here (failed : answer i = .error failure) (rest : List Nat) :
    FailsFirst answer (i :: rest) failure :=
  ⟨[], i, rest, rfl, failed, by simp⟩

theorem cons (fails : FailsFirst answer is failure) (passed : answer i = .ok value) :
    FailsFirst answer (i :: is) failure := by
  obtain ⟨before, j, rest, rfl, failed, others⟩ := fails
  exact ⟨i :: before, j, rest, rfl, failed, List.forall_mem_cons.mpr ⟨⟨value, passed⟩, others⟩⟩

theorem congr {other : Nat → Except Failure α} (fails : FailsFirst answer is failure)
    (same : ∀ i ∈ is, other i = answer i) : FailsFirst other is failure := by
  obtain ⟨before, j, rest, rfl, failed, others⟩ := fails
  simp only [List.forall_mem_append, List.forall_mem_cons] at same
  refine ⟨before, j, rest, rfl, same.2.1.trans failed, ?_⟩
  intro k member
  rw [same.1 k member]
  exact others k member

end FailsFirst

theorem prepareEach_fails (run : c.prepareEach is = (.error failure, after)) :
    FailsFirst (fun i => (after.prepare i).1) is failure := by
  obtain ⟨before, i, rest, split, prepared, failed⟩ := prepareEach_error run
  refine ⟨before, i, rest, split, congrArg Prod.fst failed, ?_⟩
  intro j member
  obtain ⟨used, again⟩ := (prepareEach_decides prepared j member).prepare_eq
  exact ⟨used, congrArg Prod.fst again⟩

/-- The second phase: requests in the order of the schedule. -/
def concludeBy (schedule : List Nat) (c : Compilation) :
    Except Failure (List Action) × Compilation :=
  let (answers, after) := c.actionsAt schedule
  let result := collect answers after.places
  (result, { after with log := after.log.closePhase result.isOk })

theorem generateBy_unprepared
    (failed : prepareEach { c with log := c.log.beginPhase "Preparing" } c.script =
      (.error failure, mid)) (schedule : List Nat) :
    c.generateBy schedule = (.error failure, { mid with log := mid.log.closePhase false }) := by
  simp only [generateBy, failed]

theorem generateBy_prepared
    (passed : prepareEach { c with log := c.log.beginPhase "Preparing" } c.script = (.ok (), mid))
    (schedule : List Nat) :
    c.generateBy schedule = concludeBy schedule
      { mid with log := (mid.log.closePhase true).beginPhase "Generating" } := by
  simp only [generateBy, passed, concludeBy]
  split <;> rename_i collected <;> simp [collected, Except.isOk, Except.toBool]

end Grf.Compilation
