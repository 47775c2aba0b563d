import Grf.Proofs.Numbering

namespace Grf.Ledger

variable {ledger frozen after : Ledger} {n : Node}

/-- The warning that an operation raises, with the node that it is about. -/
def warning? (ledger : Ledger) : Operation → Option (Node × Warning)
  | .prepare n => (ledger.prepare n).warning.map fun w => (n, w)
  | _ => none

/-- The warnings that operations raise, one after the other. -/
def warnings (ledger : Ledger) : List Operation → List (Node × Warning)
  | [] => []
  | operation :: rest =>
    (ledger.warning? operation).toList ++ (ledger.operate operation).warnings rest

/-- No entry is made any more, and features are not propagated again. -/
structure Refuses (ledger : Ledger) : Prop where
  enter : ∀ e, ledger.enter e = .error .frozen ∧ ledger.operate (.enter e) = ledger
  propagate : ledger.propagate = .error .propagatedTwice ∧ ledger.operate .propagate = ledger

/-- All that can be asked about names, references and features has the same answer. -/
structure SameAnswers (ledger after : Ledger) : Prop where
  find? : ∀ name, after.find? name = ledger.find? name
  nodes : after.nodes = ledger.nodes
  references : ∀ n, after.references.targets n = ledger.references.targets n
  features : ∀ n, after.features n = ledger.features n
  isUsed : ∀ n, after.isUsed n = ledger.isUsed n
  checkCycles : after.checkCycles = ledger.checkCycles

theorem refuses (propagated : ledger.isPropagated = true) : ledger.Refuses where
  enter := by
    intro e
    have refused : ledger.enter e = .error .frozen := by
      cases e <;> simp [enter, define, link, use, propagated]
    exact ⟨refused, by simp only [operate, refused]⟩
  propagate := by
    have refused : ledger.propagate = .error .propagatedTwice := by
      simp [Ledger.propagate, propagated]
    exact ⟨refused, by simp only [operate, refused]⟩

/-- From propagation on, nothing changes but what is prepared and given out. -/
theorem Changes.frame (changes : Changes ledger after) (propagated : ledger.isPropagated = true) :
    ∃ prepared allocations, after = { ledger with prepared, allocations } := by
  have known : ledger.carried ≠ none := Option.isSome_iff_ne_none.mp propagated
  refine changes.keeps
    (motive := fun next => ∃ prepared allocations, next = { ledger with prepared, allocations })
    ?_ ⟨ledger.prepared, ledger.allocations, rfl⟩
  intro before next change framed
  obtain ⟨prepared, allocations, rfl⟩ := framed
  cases change with
  | none => exact ⟨prepared, allocations, rfl⟩
  | grow early => exact absurd early known
  | propagate early => exact absurd early known
  | prepare => exact ⟨_, _, rfl⟩

theorem Changes.sameAnswers (changes : Changes ledger after)
    (propagated : ledger.isPropagated = true) : SameAnswers ledger after := by
  obtain ⟨prepared, allocations, rfl⟩ := changes.frame propagated
  exact ⟨fun _ => rfl, rfl, fun _ => rfl, fun _ => rfl, fun _ => rfl, rfl⟩

theorem Changes.warnUnused (changes : Changes ledger after) :
    after.warnUnused = ledger.warnUnused := by
  refine changes.keeps (motive := fun next => next.warnUnused = ledger.warnUnused) ?_ rfl
  intro before next change same
  cases change <;> exact same

theorem isPropagated_of_propagate (run : ledger.propagate = .ok frozen) :
    frozen.isPropagated = true := by
  obtain ⟨_, rfl, _⟩ := carried_of_propagate run
  rfl

/-- The answer of a preparation is read off the features, whether it is new or repeated. -/
theorem Numbered.prepare_eq (numbered : ledger.Numbered) {used : Bool}
    (passed : (ledger.prepare n).used = .ok used) : used = ledger.isUsed n := by
  rcases ledger.prepare_cases n with ⟨_, known⟩ | ⟨_, decided, _⟩
  · exact (numbered.lookup_iff.mp (known used passed)).2
  · exact Except.ok.inj (passed.symm.trans decided)

/-- A warning comes from a first preparation. One that runs out of IDs is that of a used node, which
gives rise to none. -/
theorem warning_prepare (ledger : Ledger) (n : Node) :
    (ledger.prepare n).warning =
      if ledger.isPropagated = true ∧ ledger.prepared.lookup n = none then ledger.unusedWarning? n
      else none := by
  cases passed : (ledger.prepare n).used with
  | error failure =>
    obtain ⟨unchanged, reason⟩ := prepare_error passed
    rw [unchanged]
    rcases reason with ⟨early, _⟩ | ⟨_, _, f, carried, _⟩
    · simp [early]
    · simp [unusedWarning?, isUsed_iff.mpr ⟨f, carried⟩]
  | ok used =>
    have propagated := propagated_of_prepare passed
    cases known : ledger.prepared.lookup n with
    | some memo => simp [prepare_again propagated known]
    | none => simp [(prepare_first propagated known passed).2.2, propagated]

theorem warning_prepare_eq_some {w : Warning} :
    (ledger.prepare n).warning = some w ↔
      (ledger.isPropagated = true ∧ ledger.prepared.lookup n = none) ∧
        ledger.isUsed n = false ∧ ledger.warnUnused = true ∧
          w = .unreferenced n.kind n.name.name n.name.position := by
  rw [warning_prepare, Option.ite_none_right_eq_some, unusedWarning?]
  refine and_congr_right fun _ => ?_
  cases ledger.isUsed n with
  | true => simp
  | false =>
    cases ledger.warnUnused with
    | false => simp
    | true => simp [eq_comm (a := w)]

/-- An operation other than its own preparation decides nothing about a node. -/
theorem lookup_operate_of_ne {operation : Operation} (other : operation ≠ .prepare n) :
    (ledger.operate operation).prepared.lookup n = ledger.prepared.lookup n := by
  cases operation with
  | enter e =>
    cases run : ledger.enter e with
    | error failure => simp only [operate, run]
    | ok after =>
      obtain ⟨_, _, _, _, rfl⟩ := enter_grows run
      simp only [operate, run]
  | propagate =>
    cases run : ledger.propagate with
    | error failure => simp only [operate, run]
    | ok after =>
      obtain ⟨_, rfl, _⟩ := carried_of_propagate run
      simp only [operate, run]
  | checkCycles => rfl
  | prepare m =>
    have different : n ≠ m := fun same => other (congrArg Operation.prepare same.symm)
    rcases ledger.prepare_cases m with ⟨same, _⟩ | ⟨_, _, changed⟩
    · rw [operate, same]
    · rw [operate, changed, withPrepared, List.lookup_append, List.lookup_cons,
        beq_false_of_ne different]
      simp

theorem lookup_operateAll_of_not_mem {operations : List Operation}
    (others : .prepare n ∉ operations) :
    (ledger.operateAll operations).prepared.lookup n = ledger.prepared.lookup n := by
  induction operations generalizing ledger with
  | nil => rfl
  | cons operation rest ih =>
    simp only [List.mem_cons, not_or] at others
    have kept : (ledger.operate operation).prepared.lookup n = ledger.prepared.lookup n :=
      lookup_operate_of_ne (Ne.symm others.1)
    exact (ih others.2).trans kept

/-- A node that is not used needs no IDs, so its preparation decides about it. -/
theorem lookup_prepare_unused (propagated : ledger.isPropagated = true)
    (unused : ledger.isUsed n = false) : (ledger.prepare n).ledger.prepared.lookup n ≠ none := by
  cases passed : (ledger.prepare n).used with
  | error failure =>
    rcases (prepare_error passed).2 with ⟨early, _⟩ | ⟨_, _, f, carried, _⟩
    · rw [propagated] at early
      cases early
    · rw [isUsed_iff.mpr ⟨f, carried⟩] at unused
      cases unused
  | ok used => simp [lookup_prepare passed]

/-- After propagation, a node that is not used is undecided until it is prepared. -/
theorem lookup_operateAll_eq_none (propagated : frozen.isPropagated = true)
    (unused : frozen.isUsed n = false) (new : frozen.prepared.lookup n = none)
    {operations : List Operation} :
    (frozen.operateAll operations).prepared.lookup n = none ↔ .prepare n ∉ operations := by
  constructor
  · intro undecided member
    obtain ⟨before, later, rfl⟩ := List.append_of_mem member
    have changes := frozen.operateAll_changes before
    have unusedThen := ((changes.sameAnswers propagated).isUsed n).trans unused
    have decides := lookup_prepare_unused (changes.isPropagated propagated) unusedThen
    obtain ⟨used, known⟩ := Option.ne_none_iff_exists'.mp decides
    have stays := (operateAll_changes _ later).lookup known
    rw [operateAll_append] at undecided
    cases undecided.symm.trans stays
  · intro others
    exact (lookup_operateAll_of_not_mem others).trans new

/-- An operation other than propagation leaves the ledger growing. -/
theorem growing_operate {operation : Operation} (other : operation ≠ .propagate)
    (growing : ledger.carried = none) : (ledger.operate operation).carried = none := by
  cases operation with
  | enter e =>
    cases run : ledger.enter e with
    | error failure => simpa only [operate, run] using growing
    | ok after =>
      obtain ⟨_, _, _, _, rfl⟩ := enter_grows run
      simpa only [operate, run] using growing
  | propagate => exact absurd rfl other
  | checkCycles => exact growing
  | prepare m =>
    obtain ⟨_, _, frame⟩ := ledger.prepare_frame m
    rw [operate, frame]
    exact growing

theorem operateAll_propagate {early : List Operation}
    (run : (ledger.operateAll early).propagate = .ok frozen) (late : List Operation) :
    ledger.operateAll (early ++ .propagate :: late) = frozen.operateAll late := by
  have step : (ledger.operateAll early).operate .propagate = frozen := by simp only [operate, run]
  rw [operateAll_append, ← step]
  rfl

/-- In a run that propagates features, one propagation succeeds. -/
theorem exists_propagation {operations : List Operation} (growing : ledger.carried = none)
    (propagated : (ledger.operateAll operations).isPropagated = true) :
    ∃ early frozen late, operations = early ++ .propagate :: late ∧
      (ledger.operateAll early).propagate = .ok frozen := by
  induction operations generalizing ledger with
  | nil => simp [operateAll, isPropagated, growing] at propagated
  | cons operation rest ih =>
    by_cases first : operation = .propagate
    · subst first
      obtain ⟨carried, run⟩ := propagate_eq growing
      exact ⟨[], _, rest, rfl, run⟩
    · obtain ⟨early, frozen, late, rfl, run⟩ := ih (growing_operate first growing) propagated
      exact ⟨operation :: early, frozen, late, rfl, run⟩

/-- In the run so far, features were propagated, and the node was not prepared since then. -/
def AwaitsFirst (start : Ledger) (operations : List Operation) (n : Node) : Prop :=
  ∃ early frozen late, operations = early ++ .propagate :: late ∧
    (start.operateAll early).propagate = .ok frozen ∧ .prepare n ∉ late

/-- What is known of a ledger whose features are just propagated: nothing is prepared yet. -/
theorem Numbered.prepared_of_propagate (numbered : ledger.Numbered)
    (run : ledger.propagate = .ok frozen) : frozen.prepared = [] := by
  have growing : ledger.carried = none := by
    cases known : ledger.carried with
    | none => rfl
    | some _ => simp [propagate, isPropagated, known] at run
  obtain ⟨_, rfl, _⟩ := carried_of_propagate run
  exact (numbered.late growing).1

theorem awaitsFirst_iff {start : Ledger} (numbered : start.Numbered)
    (growing : start.carried = none) {operations : List Operation}
    (unused : (start.operateAll operations).isUsed n = false) :
    start.AwaitsFirst operations n ↔
      (start.operateAll operations).isPropagated = true ∧
        (start.operateAll operations).prepared.lookup n = none := by
  -- Both sides speak of what follows the one propagation that succeeds.
  have since {early late : List Operation} {frozen : Ledger}
      (run : (start.operateAll early).propagate = .ok frozen)
      (split : operations = early ++ .propagate :: late) :
      (start.operateAll operations).isPropagated = true ∧
        ((start.operateAll operations).prepared.lookup n = none ↔ .prepare n ∉ late) := by
    have whole : start.operateAll operations = frozen.operateAll late := by
      rw [split, operateAll_propagate run]
    have propagated := isPropagated_of_propagate run
    have changes := frozen.operateAll_changes late
    have numberedEarly := numbered.changes (start.operateAll_changes early)
    have new : frozen.prepared.lookup n = none := by
      rw [numberedEarly.prepared_of_propagate run]
      rfl
    have unusedThen : frozen.isUsed n = false := by
      rw [← (changes.sameAnswers propagated).isUsed n, ← whole]
      exact unused
    rw [whole]
    exact ⟨changes.isPropagated propagated, lookup_operateAll_eq_none propagated unusedThen new⟩
  constructor
  · rintro ⟨early, frozen, late, split, run, others⟩
    obtain ⟨propagated, undecided⟩ := since run split
    exact ⟨propagated, undecided.mpr others⟩
  · rintro ⟨propagated, new⟩
    obtain ⟨early, frozen, late, split, run⟩ := exists_propagation growing propagated
    exact ⟨early, frozen, late, split, run, (since run split).2.mp new⟩

/-- A node that is warned about was undecided before, and is decided from then on. -/
theorem warnings_undecided (ledger : Ledger) (operations : List Operation) :
    (∀ entry ∈ ledger.warnings operations, ledger.prepared.lookup entry.1 = none) ∧
      ((ledger.warnings operations).map (·.1)).Nodup := by
  induction operations generalizing ledger with
  | nil => simp [warnings]
  | cons operation rest ih =>
    obtain ⟨undecided, distinct⟩ := ih (ledger.operate operation)
    have change : Changes ledger (ledger.operate operation) :=
      .single (ledger.operate_change operation)
    have earlier : ∀ entry ∈ (ledger.operate operation).warnings rest,
        ledger.prepared.lookup entry.1 = none := by
      intro entry member
      cases known : ledger.prepared.lookup entry.1 with
      | none => rfl
      | some used => cases (undecided entry member).symm.trans (change.lookup known)
    cases operation with
    | prepare n =>
      cases raised : (ledger.prepare n).warning with
      | none =>
        simp only [warnings, warning?, raised, Option.map_none, Option.toList_none, List.nil_append]
        exact ⟨earlier, distinct⟩
      | some w =>
        obtain ⟨⟨propagated, new⟩, unused, _⟩ := warning_prepare_eq_some.mp raised
        have decided := lookup_prepare_unused propagated unused
        have apart : n ∉ ((ledger.operate (.prepare n)).warnings rest).map (·.1) := by
          intro member
          obtain ⟨entry, later, same⟩ := List.mem_map.mp member
          exact decided (same ▸ undecided entry later)
        simp only [warnings, warning?, raised, Option.map_some, Option.toList_some,
          List.singleton_append, List.map_cons]
        exact ⟨List.forall_mem_cons.mpr ⟨new, earlier⟩, List.nodup_cons.mpr ⟨apart, distinct⟩⟩
    | _ => exact ⟨earlier, distinct⟩

/-- Over every run of operations, failing ones included: once features are propagated, entries and
a second propagation are refused, and names, references and features have the same answers for
good. A preparation that passes tells whether its node is used. A node is warned about at most once,
by its first preparation after propagation, and that exactly if it is not used and warnings are
asked for. -/
theorem propagation_freezes (warnUnused : Bool) (capacity : Int64)
    (operations more : List Operation) :
    (∀ frozen, ((blank warnUnused capacity).operateAll operations).propagate = .ok frozen →
      (frozen.operateAll more).Refuses ∧ SameAnswers frozen (frozen.operateAll more)) ∧
    (∀ n used, (((blank warnUnused capacity).operateAll operations).prepare n).used = .ok used →
      used = ((blank warnUnused capacity).operateAll operations).isUsed n) ∧
    (((blank warnUnused capacity).warnings operations).map (·.1)).Nodup ∧
    ∀ n w, (((blank warnUnused capacity).operateAll operations).prepare n).warning = some w ↔
      (blank warnUnused capacity).AwaitsFirst operations n ∧
        ((blank warnUnused capacity).operateAll operations).isUsed n = false ∧
        warnUnused = true ∧ w = .unreferenced n.kind n.name.name n.name.position := by
  have start := Numbered.blank warnUnused capacity
  have changes := (blank warnUnused capacity).operateAll_changes operations
  refine ⟨?_, ?_, (warnings_undecided _ operations).2, ?_⟩
  · intro frozen run
    have propagated := isPropagated_of_propagate run
    have later := frozen.operateAll_changes more
    exact ⟨refuses (later.isPropagated propagated), later.sameAnswers propagated⟩
  · intro n used passed
    exact (start.changes changes).prepare_eq passed
  · intro n w
    rw [warning_prepare_eq_some, changes.warnUnused]
    refine and_congr_left ?_
    rintro ⟨unused, _⟩
    exact (awaitsFirst_iff start rfl unused).symm

end Grf.Ledger
