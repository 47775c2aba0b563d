import Grf.Proofs.Preparation
import Grf.Proofs.Propagation

namespace Grf.Ledger

/-- All that can be asked of a ledger and may change it, in any order. -/
inductive Operation where
  | enter (e : Entry)
  | propagate
  | checkCycles
  | prepare (n : Node)

/-- The ledger after an operation. Where that fails, the ledger stays as it is. -/
def operate (ledger : Ledger) : Operation → Ledger
  | .enter e =>
    match ledger.enter e with
    | .ok after => after
    | .error _ => ledger
  | .propagate =>
    match ledger.propagate with
    | .ok after => after
    | .error _ => ledger
  | .checkCycles => ledger
  | .prepare n => (ledger.prepare n).ledger

/-- A ledger in which nothing is entered yet. -/
def blank (warnUnused : Bool) (capacity : Int64) : Ledger :=
  { warnUnused, capacity }

def operateAll (ledger : Ledger) (operations : List Operation) : Ledger :=
  operations.foldl operate ledger

/-- The node whose preparation returns that it is used. -/
def approval? (ledger : Ledger) : Operation → Option Node
  | .prepare n =>
    match (ledger.prepare n).used with
    | .ok true => some n
    | _ => none
  | _ => none

/-- The nodes whose preparation returned, in the course of the operations, that they are used. -/
def approvals (ledger : Ledger) : List Operation → List Node
  | [] => []
  | operation :: rest =>
    (ledger.approval? operation).toList ++ (ledger.operate operation).approvals rest

/-- The ledger after the first preparation of a node. -/
def withPrepared (ledger : Ledger) (n : Node) : Ledger :=
  { ledger with
    prepared := ledger.prepared ++ [(n, ledger.isUsed n)]
    allocations := ledger.allocations ++ ledger.granted n }

/-- The node is not prepared yet, and none of the IDs that it needs is missing. -/
structure Preparable (ledger : Ledger) (n : Node) : Prop where
  propagated : ledger.isPropagated = true
  new : ledger.prepared.lookup n = none
  room : n.allocates = true → ∀ f ∈ (ledger.features n).toList, ledger.isExhausted f = false

/-- What an operation can do. The graph grows until the features of the uses are propagated, and
all that happens after that is that nodes are prepared. -/
inductive Change (ledger : Ledger) : Ledger → Prop
  | none : Change ledger ledger
  | grow {nodes references uses} : ledger.carried = .none →
      Change ledger { ledger with nodes, references, uses }
  | propagate {carried} : ledger.carried = .none →
      (∀ n f, (n, f) ∈ carried → ∃ r, (r, f) ∈ ledger.uses) →
      Change ledger { ledger with carried := some carried }
  | prepare {n} : ledger.Preparable n → Change ledger (ledger.withPrepared n)

variable {ledger after : Ledger} {n : Node}

/-- A preparation that fails changes nothing. It comes too early, or an ID that the node needs is
missing. -/
theorem prepare_error {failure : Failure} (failed : (ledger.prepare n).used = .error failure) :
    ledger.prepare n = { used := .error failure, ledger } ∧
      (ledger.isPropagated = false ∧ failure = .preparedEarly ∨
        ledger.isPropagated = true ∧ n.allocates = true ∧ ∃ f ∈ (ledger.features n).toList,
          ledger.isExhausted f = true ∧
            failure = .inScript (.idsExhausted n.kind n.name.name f) n.name.position) := by
  cases propagated : ledger.isPropagated with
  | false =>
    simp only [prepare, propagated, Bool.not_false, if_true, Except.error.injEq] at failed ⊢
    subst failed
    exact ⟨rfl, Or.inl ⟨trivial, rfl⟩⟩
  | true =>
    simp only [prepare, propagated, Bool.not_true, Bool.false_eq_true, if_false] at failed ⊢
    split at failed
    · cases failed
    · split at failed
      · cases failed
      · rename_i used
        split at failed
        · rename_i allocates
          split at failed
          · rename_i f missing
            cases failed
            simp only [used, Bool.false_eq_true, if_false, allocates, if_true]
            exact ⟨trivial, Or.inr ⟨trivial, trivial, f, List.mem_of_find?_eq_some missing,
              List.find?_some missing, rfl⟩⟩
          · cases failed
        · cases failed

theorem prepare_failed {failure : Failure} (failed : (ledger.prepare n).used = .error failure) :
    (ledger.prepare n).ledger = ledger := by
  rw [(prepare_error failed).1]

theorem prepare_room {used : Bool} (propagated : ledger.isPropagated = true)
    (new : ledger.prepared.lookup n = none) (passed : (ledger.prepare n).used = .ok used)
    (allocates : n.allocates = true) :
    ∀ f ∈ (ledger.features n).toList, ledger.isExhausted f = false := by
  simp only [prepare, propagated, new, allocates, Bool.not_true, Bool.false_eq_true, if_false,
    if_true] at passed
  split at passed
  · rename_i none
    simp [List.isEmpty_iff.mp none]
  · split at passed
    · cases passed
    · rename_i enough
      simpa using List.find?_eq_none.mp enough

theorem propagated_of_prepare {used : Bool} (passed : (ledger.prepare n).used = .ok used) :
    ledger.isPropagated = true := by
  cases early : ledger.isPropagated with
  | true => rfl
  | false => simp [prepare, early] at passed

/-- A preparation that does more than repeat an answer is the first one of its node. -/
theorem prepare_cases (ledger : Ledger) (n : Node) :
    ((ledger.prepare n).ledger = ledger ∧
        ∀ used, (ledger.prepare n).used = .ok used → ledger.prepared.lookup n = some used) ∨
      (ledger.Preparable n ∧ (ledger.prepare n).used = .ok (ledger.isUsed n) ∧
        (ledger.prepare n).ledger = ledger.withPrepared n) := by
  cases passed : (ledger.prepare n).used with
  | error failure => exact Or.inl ⟨prepare_failed passed, by simp⟩
  | ok used =>
    have propagated := propagated_of_prepare passed
    cases known : ledger.prepared.lookup n with
    | some memo =>
      rw [prepare_again propagated known] at passed ⊢
      cases passed
      exact Or.inl ⟨rfl, fun _ same => congrArg some (Except.ok.inj same)⟩
    | none =>
      obtain ⟨rfl, changed, _⟩ := prepare_first propagated known passed
      exact Or.inr ⟨⟨propagated, known, prepare_room propagated known passed⟩, rfl, changed⟩

theorem enter_grows {e : Entry} (run : ledger.enter e = .ok after) :
    ledger.carried = none ∧
      ∃ nodes references uses, after = { ledger with nodes, references, uses } := by
  cases e with
  | define n =>
    obtain ⟨growing, _, rfl⟩ := define_eq_ok.mp run
    exact ⟨growing, _, _, _, rfl⟩
  | link source target =>
    obtain ⟨growing, rfl⟩ := link_eq_ok.mp run
    exact ⟨growing, _, _, _, rfl⟩
  | use n f =>
    obtain ⟨growing, rfl⟩ := use_eq_ok.mp run
    exact ⟨growing, _, _, _, rfl⟩

theorem enter_change {e : Entry} (run : ledger.enter e = .ok after) : ledger.Change after := by
  obtain ⟨growing, nodes, references, uses, rfl⟩ := enter_grows run
  exact .grow growing

theorem propagate_change (run : ledger.propagate = .ok after) : ledger.Change after := by
  have growing : ledger.carried = none := by
    unfold propagate at run
    split at run
    · cases run
    · rename_i early
      simpa [isPropagated] using early
  obtain ⟨carried, rfl, reached⟩ := carried_of_propagate run
  refine .propagate growing ?_
  intro n f member
  obtain ⟨r, used, _⟩ := (reached n f).mp member
  exact ⟨r, used⟩

theorem prepare_frame (ledger : Ledger) (n : Node) :
    ∃ prepared allocations, (ledger.prepare n).ledger = { ledger with prepared, allocations } := by
  rcases ledger.prepare_cases n with ⟨same, _⟩ | ⟨_, _, changed⟩
  · exact ⟨ledger.prepared, ledger.allocations, same⟩
  · exact ⟨_, _, changed⟩

theorem prepare_change (ledger : Ledger) (n : Node) :
    ledger.Change (ledger.prepare n).ledger := by
  rcases ledger.prepare_cases n with ⟨same, _⟩ | ⟨preparable, _, changed⟩
  · rw [same]
    exact .none
  · rw [changed]
    exact .prepare preparable

theorem operate_change (ledger : Ledger) (operation : Operation) :
    ledger.Change (ledger.operate operation) := by
  cases operation with
  | enter e =>
    cases run : ledger.enter e with
    | error failure => simpa only [operate, run] using .none
    | ok after => simpa only [operate, run] using enter_change run
  | propagate =>
    cases run : ledger.propagate with
    | error failure => simpa only [operate, run] using .none
    | ok after => simpa only [operate, run] using propagate_change run
  | checkCycles => exact .none
  | prepare n => exact ledger.prepare_change n

theorem lookup_prepare {used : Bool} (passed : (ledger.prepare n).used = .ok used) :
    (ledger.prepare n).ledger.prepared.lookup n = some used := by
  rcases ledger.prepare_cases n with ⟨same, known⟩ | ⟨preparable, decided, changed⟩
  · rw [same]
    exact known used passed
  · cases decided.symm.trans passed
    rw [changed, withPrepared, List.lookup_append, preparable.new]
    simp

/-- Any number of changes, one after the other. -/
def Changes : Ledger → Ledger → Prop :=
  Relation.ReflTransGen Change

theorem operateAll_changes (ledger : Ledger) (operations : List Operation) :
    Changes ledger (ledger.operateAll operations) := by
  induction operations generalizing ledger with
  | nil => exact .refl
  | cons operation rest ih => exact .head (ledger.operate_change operation) (ih _)

namespace Changes

theorem keeps {motive : Ledger → Prop} (changes : Changes ledger after)
    (step : ∀ before next, Change before next → motive before → motive next)
    (start : motive ledger) : motive after := by
  induction changes with
  | refl => exact start
  | tail _ change ih => exact step _ _ change ih

theorem capacity (changes : Changes ledger after) : after.capacity = ledger.capacity := by
  refine changes.keeps (motive := fun next => next.capacity = ledger.capacity) ?_ rfl
  intro before next change same
  cases change <;> exact same

/-- The features that were propagated stay. -/
theorem carried (changes : Changes ledger after) (propagated : ledger.carried ≠ none) :
    after.carried = ledger.carried := by
  refine changes.keeps (motive := fun next => next.carried = ledger.carried) ?_ rfl
  intro before next change same
  rw [← same] at propagated ⊢
  cases change with
  | none => rfl
  | grow => rfl
  | propagate early => exact absurd early propagated
  | prepare => rfl

theorem features (changes : Changes ledger after) (propagated : ledger.carried ≠ none) (n : Node) :
    after.features n = ledger.features n := by
  unfold Ledger.features
  rw [changes.carried propagated]

theorem isPropagated (changes : Changes ledger after) (propagated : ledger.isPropagated = true) :
    after.isPropagated = true := by
  have known : ledger.carried ≠ none := Option.isSome_iff_ne_none.mp propagated
  rw [Ledger.isPropagated, changes.carried known]
  exact propagated

/-- What was decided about a node stays. -/
theorem lookup {used : Bool} (changes : Changes ledger after)
    (known : ledger.prepared.lookup n = some used) : after.prepared.lookup n = some used := by
  refine changes.keeps (motive := fun next => next.prepared.lookup n = some used) ?_ known
  intro before next change decided
  cases change with
  | none => exact decided
  | grow => exact decided
  | propagate => exact decided
  | prepare => rw [withPrepared, List.lookup_append, decided, Option.some_or]

end Changes

theorem operateAll_append (ledger : Ledger) (operations more : List Operation) :
    ledger.operateAll (operations ++ more) = (ledger.operateAll operations).operateAll more :=
  List.foldl_append

theorem approval?_eq_some {operation : Operation} :
    ledger.approval? operation = some n ↔
      operation = .prepare n ∧ (ledger.prepare n).used = .ok true := by
  cases operation with
  | prepare m =>
    simp only [approval?]
    constructor
    · intro approved
      split at approved
      · cases approved
        exact ⟨rfl, by assumption⟩
      · cases approved
    · rintro ⟨same, used⟩
      cases same
      simp only [used]
  | _ => simp [approval?]

/-- The memo of preparations holds the approved nodes, and gets them from nowhere else. -/
theorem lookup_operate (ledger : Ledger) (operation : Operation) (n : Node) :
    (ledger.operate operation).prepared.lookup n = some true ↔
      ledger.prepared.lookup n = some true ∨ ledger.approval? operation = some n := by
  rw [approval?_eq_some]
  cases operation with
  | enter e =>
    cases run : ledger.enter e with
    | error failure => simp [operate, run]
    | ok after =>
      obtain ⟨_, _, _, _, rfl⟩ := enter_grows run
      simp [operate, run]
  | propagate =>
    cases run : ledger.propagate with
    | error failure => simp [operate, run]
    | ok after =>
      obtain ⟨_, rfl, _⟩ := carried_of_propagate run
      simp [operate, run]
  | checkCycles => simp [operate]
  | prepare m =>
    simp only [operate, Operation.prepare.injEq]
    rcases ledger.prepare_cases m with ⟨same, known⟩ | ⟨preparable, used, changed⟩
    · rw [same]
      constructor
      · exact Or.inl
      · rintro (before | ⟨rfl, approved⟩)
        · exact before
        · exact known true approved
    · rw [changed, withPrepared, List.lookup_append, Option.or_eq_some_iff]
      by_cases here : n = m
      · subst here
        simp [preparable.new, used]
      · simp [List.lookup_cons, beq_false_of_ne here, Ne.symm here]

theorem lookup_operateAll (ledger : Ledger) (operations : List Operation) (n : Node) :
    (ledger.operateAll operations).prepared.lookup n = some true ↔
      ledger.prepared.lookup n = some true ∨ n ∈ ledger.approvals operations := by
  induction operations generalizing ledger with
  | nil => simp [operateAll, approvals]
  | cons operation rest ih =>
    have unfolded := ih (ledger.operate operation)
    rw [lookup_operate, or_assoc] at unfolded
    rw [approvals, List.mem_append, Option.mem_toList]
    exact unfolded

theorem mem_approvals_blank {warnUnused : Bool} {capacity : Int64} {operations : List Operation} :
    ((blank warnUnused capacity).operateAll operations).prepared.lookup n = some true ↔
      n ∈ (blank warnUnused capacity).approvals operations := by
  rw [lookup_operateAll]
  simp [blank]

end Grf.Ledger
