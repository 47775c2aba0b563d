import Grf.Proofs.Numbering

namespace Grf.Ledger

variable {ledger after : Ledger} {n m : Node} {f : Feature} {failure : Failure}

/-- The node waits for its preparation, and an ID that it needs for that is missing. -/
structure Starved (ledger : Ledger) (n : Node) : Prop where
  propagated : ledger.isPropagated = true
  new : ledger.prepared.lookup n = none
  allocates : n.allocates = true
  missing : ∃ f ∈ (ledger.features n).toList, ledger.isExhausted f = true

theorem starved_of_prepare (failed : (ledger.prepare n).used = .error failure)
    (full : failure.kind? = some .capacity) : ledger.Starved n := by
  obtain ⟨_, reason⟩ := prepare_error failed
  rcases reason with ⟨_, rfl⟩ | ⟨propagated, allocates, f, carried, exhausted, _⟩
  · cases full
  · refine ⟨propagated, ?_, allocates, f, carried, exhausted⟩
    cases known : ledger.prepared.lookup n with
    | none => rfl
    | some used =>
      rw [prepare_again propagated known] at failed
      cases failed

namespace Starved

theorem prepare_fails (starved : ledger.Starved n) :
    ∃ failure, (ledger.prepare n).used = .error failure ∧ failure.kind? = some .capacity := by
  obtain ⟨f, carried, exhausted⟩ := starved.missing
  cases failed : (ledger.prepare n).used with
  | ok used =>
    have room := prepare_room starved.propagated starved.new failed starved.allocates f carried
    cases exhausted.symm.trans room
  | error failure =>
    obtain ⟨_, reason⟩ := prepare_error failed
    rcases reason with ⟨early, _⟩ | ⟨_, _, g, _, _, rfl⟩
    · cases starved.propagated.symm.trans early
    · exact ⟨_, rfl, rfl⟩

/-- A node that can be prepared is another one. -/
theorem ne_of_preparable (starved : ledger.Starved n) (preparable : ledger.Preparable m) :
    n ≠ m := by
  rintro rfl
  obtain ⟨f, carried, exhausted⟩ := starved.missing
  cases exhausted.symm.trans (preparable.room starved.allocates f carried)

end Starved

/-- IDs are not given back, so what is used up stays so. -/
theorem isExhausted_withPrepared (exhausted : ledger.isExhausted f = true) (m : Node) :
    (ledger.withPrepared m).isExhausted f = true := by
  have grows : (ledger.withPrepared m).nextId f =
      ledger.nextId f + (ledger.granted m).countP fun a => a.feature = f :=
    List.countP_append
  have full : ledger.capacity.toInt ≤ ledger.nextId f := of_decide_eq_true exhausted
  have capacity : (ledger.withPrepared m).capacity = ledger.capacity := rfl
  refine decide_eq_true ?_
  rw [capacity, grows]
  omega

theorem Starved.withPrepared (starved : ledger.Starved n) (preparable : ledger.Preparable m) :
    (ledger.withPrepared m).Starved n where
  propagated := starved.propagated
  new := by
    have other := starved.ne_of_preparable preparable
    rw [Ledger.withPrepared, List.lookup_append, starved.new, List.lookup_cons,
      beq_false_of_ne other]
    rfl
  allocates := starved.allocates
  missing := by
    obtain ⟨f, carried, exhausted⟩ := starved.missing
    exact ⟨f, carried, isExhausted_withPrepared exhausted m⟩

theorem Starved.step (change : ledger.Change after) (starved : ledger.Starved n) :
    after.Starved n := by
  have propagated : ledger.carried ≠ none := Option.isSome_iff_ne_none.mp starved.propagated
  cases change with
  | none => exact starved
  | grow early => exact absurd early propagated
  | propagate early => exact absurd early propagated
  | prepare preparable => exact starved.withPrepared preparable

theorem Starved.changes (starved : ledger.Starved n) (changes : Changes ledger after) :
    after.Starved n :=
  changes.keeps (fun _ _ => step) starved

/-- Only nodes that were prepared have IDs. -/
theorem Starved.id?_eq_none (starved : ledger.Starved n) (numbered : ledger.Numbered)
    (f : Feature) : ledger.id? n f = none := by
  cases given : ledger.id? n f with
  | none => rfl
  | some id =>
    have holder := numbered.exists_id?_iff.mp ⟨id, given⟩
    obtain ⟨known, _⟩ := numbered.mem_holders.mp holder
    cases starved.new.symm.trans known

/-- The node cannot be prepared, now or later, and it makes no difference that this was tried. -/
structure Denied (ledger : Ledger) (n : Node) : Prop where
  unchanged : (ledger.prepare n).ledger = ledger
  silent : (ledger.prepare n).warning = none
  invisible : ∀ more m,
    (ledger.operateAll (.prepare n :: more)).prepare m = (ledger.operateAll more).prepare m
  again : ∀ more, ∃ failure, ((ledger.operateAll (.prepare n :: more)).prepare n).used =
    .error failure ∧ failure.kind? = some .capacity
  without : ∀ more f, (ledger.operateAll (.prepare n :: more)).id? n f = none

/-- A preparation that runs out of IDs leaves no trace, though only one of many features may be the
cause, and no later operation makes up for the missing ID. -/
theorem denied_of_capacity (warnUnused : Bool) (capacity : Int64) (operations : List Operation)
    (n : Node) (failure : Failure)
    (failed : (((blank warnUnused capacity).operateAll operations).prepare n).used = .error failure)
    (full : failure.kind? = some .capacity) :
    ((blank warnUnused capacity).operateAll operations).Denied n := by
  have numbered := (Numbered.blank warnUnused capacity).changes (operateAll_changes _ operations)
  have starved := starved_of_prepare failed full
  generalize (blank warnUnused capacity).operateAll operations = ledger at failed numbered starved
  have prepared := (prepare_error failed).1
  have skipped (more : List Operation) :
      ledger.operateAll (.prepare n :: more) = ledger.operateAll more :=
    congrArg (operateAll · more) (prepare_failed failed)
  refine ⟨prepare_failed failed, by rw [prepared], ?_, ?_, ?_⟩
  · intro more m
    rw [skipped]
  · intro more
    rw [skipped]
    exact (starved.changes (ledger.operateAll_changes more)).prepare_fails
  · intro more f
    rw [skipped]
    have changes := ledger.operateAll_changes more
    exact (starved.changes changes).id?_eq_none (numbered.changes changes) f

/-- Groups that compete for IDs. -/
def rival (key : Nat) : Node :=
  ⟨key, ⟨toString key, none⟩, "spritegroup", true⟩

/-- The first group takes the only ID for houses. The second one needs it too, and one for trains,
which is what the third one needs. -/
def rivalry : List Operation :=
  [.enter (.define (rival 0)), .enter (.define (rival 1)), .enter (.define (rival 2)),
    .enter (.use (rival 0) ⟨7⟩), .enter (.use (rival 1) ⟨0⟩), .enter (.use (rival 1) ⟨7⟩),
    .enter (.use (rival 2) ⟨0⟩), .propagate, .prepare (rival 0)]

theorem denied_of_capacity_rivalry :
    (((blank true 1).operateAll rivalry).prepare (rival 1)).used =
        .error (.inScript (.idsExhausted "spritegroup" "1" ⟨7⟩) none) ∧
      ((blank true 1).operateAll rivalry).Denied (rival 1) ∧
      ((blank true 1).operateAll (rivalry ++ [.prepare (rival 1), .prepare (rival 2)])).id?
        (rival 2) ⟨0⟩ = some 0 := by
  have failed : (((blank true 1).operateAll rivalry).prepare (rival 1)).used =
      .error (.inScript (.idsExhausted "spritegroup" "1" ⟨7⟩) none) := by decide +kernel
  exact ⟨failed, denied_of_capacity true 1 rivalry (rival 1) _ failed rfl, by decide +kernel⟩

end Grf.Ledger
