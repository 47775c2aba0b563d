import Grf.Proofs.Courses
import Grf.Proofs.Stability

namespace Grf

/-- One step in the life of a block. None leads out of the last two stages. -/
inductive Stage.Step : Stage → Stage → Prop
  | validate : Step .unvalidated .validated
  | skip : Step .validated .unused
  | emit : Step .validated .emitted

/-- Any number of steps. -/
def Stage.Leads : Stage → Stage → Prop :=
  Relation.ReflTransGen Stage.Step

theorem Stage.Leads.eq_of_last {stage later : Stage} (leads : stage.Leads later)
    (last : stage = .unused ∨ stage = .emitted) : later = stage := by
  rcases Relation.ReflTransGen.cases_head leads with same | ⟨next, step, _⟩
  · exact same.symm
  · rcases last with rfl | rfl <;> cases step

theorem Stage.Leads.ne_unvalidated {stage later : Stage} (leads : stage.Leads later)
    (validated : stage ≠ .unvalidated) : later ≠ .unvalidated := by
  rcases Relation.ReflTransGen.cases_tail leads with same | ⟨before, _, step⟩
  · rwa [same]
  · intro same
    rw [same] at step
    cases step

namespace Lifecycle

variable {e later : Lifecycle}

/-- A block without an answer has come no further than validation. -/
def Coherent (e : Lifecycle) : Prop :=
  e.outcome = none → e.stage = .unvalidated ∨ e.stage = .validated

theorem outcome_finish (e : Lifecycle) (result : Except Failure (List Action)) :
    (e.finish result).outcome = some result := by
  cases result <;> rfl

namespace Change

theorem coherent (change : Change e later) (coherent : e.Coherent) : later.Coherent := by
  cases change with
  | validate =>
    intro pending
    rw [validate_outcome] at pending
    unfold Lifecycle.validate
    split
    · exact Or.inr rfl
    · exact coherent pending
  | skip => exact fun pending => by cases pending
  | finish result =>
    intro pending
    rw [outcome_finish] at pending
    cases pending

theorem leads (change : Change e later) (coherent : e.Coherent) : e.stage.Leads later.stage := by
  cases change with
  | validate =>
    unfold Lifecycle.validate
    split
    · rename_i unvalidated
      rw [unvalidated]
      exact .single .validate
    · exact .refl
  | skip validated pending =>
    rw [(coherent pending).resolve_left validated]
    exact .single .skip
  | finish result validated pending =>
    rw [(coherent pending).resolve_left validated]
    cases result with
    | error failure =>
      rw [Lifecycle.finish, (coherent pending).resolve_left validated]
      exact .refl
    | ok actions => exact .single .emit

theorem outcome (change : Change e later) {answer : Except Failure (List Action)}
    (kept : e.outcome = some answer) : later.outcome = some answer := by
  cases change with
  | validate => rwa [validate_outcome]
  | skip _ pending => cases kept.symm.trans pending
  | finish _ _ pending => cases kept.symm.trans pending

end Change

namespace Changes

theorem leads (changes : Changes e later) (coherent : e.Coherent) :
    e.stage.Leads later.stage ∧ later.Coherent := by
  induction changes with
  | refl => exact ⟨.refl, coherent⟩
  | tail _ change ih => exact ⟨ih.1.trans (change.leads ih.2), change.coherent ih.2⟩

theorem outcome (changes : Changes e later) {answer : Except Failure (List Action)}
    (kept : e.outcome = some answer) : later.outcome = some answer := by
  induction changes with
  | refl => exact kept
  | tail _ change ih => exact change.outcome ih

end Changes

end Lifecycle

namespace Compilation

/-- The stage of a declaration; templates have none. -/
def stage? (c : Compilation) (i : Nat) : Option Stage :=
  c.declarations[i]?.bind Declaration.stage?

theorem stage?_eq (c : Compilation) (i : Nat) :
    c.stage? i = (c.block? i).map fun b => b.lifecycle.stage := by
  unfold stage? block?
  cases c.declarations[i]? with
  | none => rfl
  | some d => cases d <;> rfl

namespace Request

/-- The declaration is a block, and validated. -/
def IsDue (r : Request) : Prop :=
  ∃ stage, r.state.stage? r.number = some stage ∧ stage ≠ .unvalidated

/-- The request is the first one that found its declaration validated. -/
def IsFirst (r : Request) (earlier : List Request) : Prop :=
  r.IsDue ∧ ∀ s ∈ earlier, s.number = r.number → ¬ s.IsDue

/-- The stage after the request tells how it ended. -/
structure Concluded (r : Request) : Prop where
  unused : r.after.stage? r.number = some .unused ↔
    r.state.ledger.isPropagated = true ∧ r.state.features r.number = []
  silent : r.after.stage? r.number = some .unused →
    r.answer = .ok [] ∧ r.after.calls = r.state.calls
  emitted : r.after.stage? r.number = some .emitted ↔
    r.state.features r.number ≠ [] ∧ ∃ actions, r.answer = .ok actions
  validated : r.after.stage? r.number = some .validated ↔ ∃ failure, r.answer = .error failure

end Request

variable {c after : Compilation} {i : Nat} {b : Block} {r : Request} {requests : List Request}

theorem Request.isDue_iff : r.IsDue ↔
    ∃ b, r.state.block? r.number = some b ∧ b.lifecycle.stage ≠ .unvalidated := by
  simp only [IsDue, stage?_eq, Option.map_eq_some_iff]
  constructor
  · rintro ⟨_, ⟨b, found, rfl⟩, validated⟩
    exact ⟨b, found, validated⟩
  · rintro ⟨b, found, validated⟩
    exact ⟨_, ⟨b, found, rfl⟩, validated⟩

/-- A block stays one. -/
theorem Course.exists_block (course : Course c requests after) (found : c.block? i = some b) :
    ∃ a, after.block? i = some a := by
  obtain ⟨inside, _⟩ := List.getElem?_eq_some_iff.mp (block?_eq_some.mp found)
  have node := (course.nodes inside).trans (node?_of_block? found)
  obtain ⟨a, atI, _⟩ := node?_eq_some.mp node
  exact ⟨a, atI⟩

theorem Course.stage (course : Course c requests after) (coherent : (c.lifecycleAt i).Coherent)
    {stage : Stage} (atI : c.stage? i = some stage) :
    ∃ later, after.stage? i = some later ∧ stage.Leads later := by
  rw [stage?_eq] at atI
  obtain ⟨b, found, rfl⟩ := Option.map_eq_some_iff.mp atI
  obtain ⟨a, later⟩ := course.exists_block found
  have leads := ((course.lifecycles i).leads coherent).1
  rw [lifecycleAt_of_block? found, lifecycleAt_of_block? later] at leads
  exact ⟨_, by rw [stage?_eq, later, Option.map_some], leads⟩

/-- From a request on, a block that is validated has its answer. -/
theorem Request.IsDue.answered (due : r.IsDue) :
    (r.after.lifecycleAt r.number).outcome = some r.answer := by
  obtain ⟨b, found, validated⟩ := isDue_iff.mp due
  cases standing : b.standing? with
  | some answer =>
    rw [after, Request.answer, actions_standing found standing, lifecycleAt_of_block? found]
    simpa only [Block.standing?, if_neg validated] using standing
  | none =>
    have block := block?_actions found standing r.number
    rw [if_pos rfl] at block
    rw [after, lifecycleAt_of_block? block, reply_outcome, Request.answer,
      actions_reply found standing]

/-- A block that is validated and has an answer gives it. -/
theorem Request.IsDue.answer_eq (due : r.IsDue) {answer : Except Failure (List Action)}
    (kept : (r.state.lifecycleAt r.number).outcome = some answer) : r.answer = answer := by
  obtain ⟨b, found, validated⟩ := isDue_iff.mp due
  rw [lifecycleAt_of_block? found] at kept
  have standing : b.standing? = some answer := by
    rw [Block.standing?, if_neg validated, kept]
  rw [Request.answer, actions_standing found standing]

/-- A block that was validated stays so. -/
theorem Course.isDue {s : Request} (course : Course r.state requests s.state)
    (coherent : (r.state.lifecycleAt r.number).Coherent) (due : r.IsDue)
    (same : s.number = r.number) : s.IsDue := by
  obtain ⟨stage, before, validated⟩ := due
  obtain ⟨later, after, leads⟩ := course.stage coherent before
  rw [← same] at after
  exact ⟨later, after, leads.ne_unvalidated validated⟩

/-- Answers are kept: a later request of a block gets the answer of an earlier one. -/
theorem Course.answers (course : Course c requests after)
    (coherent : ∀ i, (c.lifecycleAt i).Coherent) :
    requests.Pairwise fun r s => r.IsDue → s.number = r.number → s.answer = r.answer := by
  induction course with
  | refl => exact .nil
  | drift drifted _ ih => exact ih fun i => ((drifted.course.lifecycles i).leads (coherent i)).2
  | @ask start last i rest course ih =>
    have coherentNext (j : Nat) := ((lifecycleAt_actions start i j).leads (coherent j)).2
    refine List.pairwise_cons.mpr ⟨?_, ih coherentNext⟩
    intro s member due same
    obtain ⟨earlier, later, rfl⟩ := List.append_of_mem member
    have between := course.split.1
    have dueLater := Course.isDue (r := ⟨start, i⟩) (.ask between) (coherent i) due same
    have kept := (between.lifecycles i).outcome due.answered
    refine dueLater.answer_eq ?_
    rw [same]
    exact kept

/-- A request that finds no validated block changes nothing. -/
theorem Request.after_of_not_isDue (early : ¬ r.IsDue) : r.after = r.state := by
  rcases actions_cases r.state r.number with same | ⟨b, found, pending⟩
  · exact same
  · have validated := (Block.standing?_eq_none.mp pending).1
    exact absurd (isDue_iff.mpr ⟨b, found, validated⟩) early

/-- Nothing but a request gives a validated block its answer. -/
theorem Course.unrequested (course : Course c requests after)
    (pending : (c.lifecycleAt i).outcome = none)
    (others : ∀ s ∈ requests, s.number = i → ¬ s.IsDue) : (after.lifecycleAt i).outcome = none := by
  induction course with
  | refl => exact pending
  | drift drifted _ ih =>
    refine ih ?_ others
    rcases drifted.lifecycles i with same | validated
    · rw [same, pending]
    · rw [validated, Lifecycle.validate_outcome, pending]
  | @ask start last j rest _ ih =>
    obtain ⟨here, later⟩ := List.forall_mem_cons.mp others
    refine ih ?_ later
    by_cases same : j = i
    · have unchanged : (start.actions j).2 = start := Request.after_of_not_isDue (here same)
      rw [unchanged, pending]
    · rw [lifecycleAt_actions_of_ne (Ne.symm same), pending]

/-- A block is skipped where it is known to have no features. -/
theorem prepare_eq_false_iff (numbered : c.ledger.Numbered) (found : c.block? i = some b) :
    (c.prepare i).1 = .ok false ↔ c.ledger.isPropagated = true ∧ c.features i = [] := by
  rw [prepare_some (node?_of_block? found)]
  constructor
  · intro passed
    have unused := isUsed_eq found
    rw [← numbered.prepare_eq passed] at unused
    exact ⟨Ledger.propagated_of_prepare passed, by simpa using unused⟩
  · rintro ⟨propagated, empty⟩
    cases passed : (c.ledger.prepare (b.node i)).used with
    | error failure =>
      rcases (Ledger.prepare_error passed).2 with ⟨early, _⟩ | ⟨_, _, f, carried, _⟩
      · cases propagated.symm.trans early
      · rw [← features_eq found, empty] at carried
        cases carried
    | ok used =>
      rw [numbered.prepare_eq passed, isUsed_eq found, empty, List.isEmpty_nil, Bool.not_true]

theorem Request.stage_after (found : r.state.block? r.number = some b)
    (pending : b.standing? = none) (stage : b.lifecycle.stage = .validated) :
    r.after.stage? r.number = some (if (r.state.prepare r.number).1 = .ok false then .unused
      else if r.answer.isOk then .emitted else .validated) := by
  rw [stage?_eq, after, block?_actions found pending, if_pos rfl, Option.map_some, lifecycle_reply,
    Request.answer, actions_reply found pending]
  split
  · rfl
  · generalize (reply _ _ _ _).1 = result
    cases result with
    | error failure => exact congrArg some stage
    | ok actions => rfl

theorem Request.propagated_of_answer (found : r.state.block? r.number = some b)
    (pending : b.standing? = none) {actions : List Action} (answer : r.answer = .ok actions) :
    r.state.ledger.isPropagated = true := by
  rw [Request.answer, actions_reply found pending] at answer
  cases passed : (r.state.prepare r.number).1 with
  | error failure =>
    rw [passed] at answer
    cases answer
  | ok used =>
    rw [prepare_some (node?_of_block? found)] at passed
    exact Ledger.propagated_of_prepare passed

/-- How the first request of a validated block ends is decided by the features that the block is
used with, and by the encoders. -/
theorem Request.concluded (numbered : r.state.ledger.Numbered)
    (coherent : (r.state.lifecycleAt r.number).Coherent) (due : r.IsDue)
    (unrequested : (r.state.lifecycleAt r.number).outcome = none) : r.Concluded := by
  obtain ⟨b, found, validated⟩ := isDue_iff.mp due
  have stage := coherent unrequested
  rw [lifecycleAt_of_block? found] at unrequested stage
  have pending := Block.standing?_eq_none.mpr ⟨validated, unrequested⟩
  have later := stage_after found pending (stage.resolve_left validated)
  have skipped := prepare_eq_false_iff numbered found
  have run := actions_reply found pending
  by_cases skip : (r.state.prepare r.number).1 = .ok false
  · obtain ⟨propagated, empty⟩ := skipped.mp skip
    have answer : r.answer = .ok [] := by
      rw [Request.answer, run, skip]
      rfl
    have calls : r.after.calls = r.state.calls := by
      obtain ⟨_, _, _, frame⟩ := (r.state.prepare_progressed r.number).frame
      rw [after, run, skip, frame]
      simp [reply, replied, update]
    rw [if_pos skip] at later
    constructor <;> simp [later, propagated, empty, answer, calls]
  · rw [if_neg skip] at later
    have kept : ¬ (r.state.ledger.isPropagated = true ∧ r.state.features r.number = []) :=
      skipped.not.mp skip
    cases answer : r.answer with
    | error failure =>
      rw [answer] at later
      constructor <;> simp [later, answer, kept, Except.isOk, Except.toBool]
    | ok actions =>
      have propagated := propagated_of_answer found pending answer
      have used : r.state.features r.number ≠ [] := fun empty => kept ⟨propagated, empty⟩
      rw [answer] at later
      constructor <;> simp [later, answer, used, Except.isOk, Except.toBool]

theorem performAll_append (c : Compilation) (operations more : List Operation) :
    c.performAll (operations ++ more) = (c.performAll operations).performAll more :=
  List.foldl_append

/-- The life of a block over any operations in any order. Its stage moves forward only. What the
first request answers that finds it validated, all later ones answer as well, and the stage after
that request tells whether the block was found unused, was encoded or has failed. -/
theorem lifecycle_exact (profile : Profile) (screen : Screen) (constants : List (String × Expr))
    (backend : Backend) (operations more : List Operation)
    (made : ∀ d, .make d ∈ operations ++ more → d.IsNew) :
    (∀ i stage,
      ((new profile screen constants backend).performAll operations).stage? i = some stage →
      ∃ later,
        ((new profile screen constants backend).performAll (operations ++ more)).stage? i =
          some later ∧
        stage.Leads later ∧ (stage = .unused ∨ stage = .emitted → later = stage)) ∧
      ((new profile screen constants backend).requests operations).Pairwise
        (fun r s => r.IsDue → s.number = r.number → s.answer = r.answer) ∧
      ∀ earlier r later,
        (new profile screen constants backend).requests operations = earlier ++ r :: later →
        r.IsFirst earlier → r.Concluded := by
  obtain ⟨madeFirst, madeLater⟩ : (∀ d, .make d ∈ operations → d.IsNew) ∧
      ∀ d, .make d ∈ more → d.IsNew :=
    ⟨fun d member => made d (List.mem_append_left _ member),
      fun d member => made d (List.mem_append_right _ member)⟩
  have fresh (i : Nat) : (new profile screen constants backend).lifecycleAt i = {} := rfl
  have coherent (i : Nat) : ((new profile screen constants backend).lifecycleAt i).Coherent :=
    fun _ => Or.inl rfl
  have course := performAll_course (new profile screen constants backend) operations madeFirst
  refine ⟨?_, course.answers coherent, ?_⟩
  · intro i stage atI
    have rest := performAll_course
      ((new profile screen constants backend).performAll operations) more madeLater
    rw [performAll_append]
    obtain ⟨later, atLater, leads⟩ := rest.stage ((course.lifecycles i).leads (coherent i)).2 atI
    exact ⟨later, atLater, leads, leads.eq_of_last⟩
  · rintro earlier r later split ⟨due, first⟩
    rw [split] at course
    have before := course.split.1
    have start := Ledger.Numbered.blank profile.warnUnused profile.maxIds
    have numbered := start.changes before.changes
    have unrequested := before.unrequested (congrArg Lifecycle.outcome (fresh r.number)) first
    exact r.concluded numbered ((before.lifecycles r.number).leads (coherent _)).2 due unrequested

/-- The set that is asked too early keeps its failure; the others are encoded once and for all. -/
theorem lifecycle_exact_yard :
    (∀ d, .make d ∈ yardOperations ++ [.validate, .actions 3] → d.IsNew) ∧
      [0, 1, 2, 3].map ((new {} { width := 80 } [] echo).performAll yardOperations).stage? =
        [some .emitted, some .emitted, some .emitted, some .validated] ∧
      ((new {} { width := 80 } [] echo).performAll
        (yardOperations ++ [.validate, .actions 3])).stage? 1 = some .emitted ∧
      ((new {} { width := 80 } [] echo).requests yardOperations).map Request.number =
        [3, 1, 1, 3, 2, 1, 0, 0, 1, 2, 3] ∧
      ((new {} { width := 80 } [] echo).requests yardOperations).Pairwise
        (fun r s => r.IsDue → s.number = r.number → s.answer = r.answer) ∧
      ∃ r rest, (new {} { width := 80 } [] echo).requests yardOperations = r :: rest ∧
        r.Concluded := by
  have made : ∀ d, .make d ∈ yardOperations ++ [.validate, .actions 3] → d.IsNew := by
    intro d member
    simp only [yardOperations, List.append_assoc, List.mem_append, List.mem_map,
      Operation.make.injEq, List.mem_cons, reduceCtorEq, List.not_mem_nil, or_false,
      exists_eq_right] at member
    exact (show ∀ d ∈ yard.declarations, d.IsNew by decide +kernel) d member
  have lives :=
    lifecycle_exact {} { width := 80 } [] echo yardOperations [.validate, .actions 3] made
  have stages : [0, 1, 2, 3].map
      ((new {} { width := 80 } [] echo).performAll yardOperations).stage? =
        [some .emitted, some .emitted, some .emitted, some .validated] := by
    decide +kernel
  have numbers : ((new {} { width := 80 } [] echo).requests yardOperations).map Request.number =
      [3, 1, 1, 3, 2, 1, 0, 0, 1, 2, 3] := by
    decide +kernel
  have validated : ((new {} { width := 80 } [] echo).requests yardOperations).head?.bind
      (fun r => r.state.stage? r.number) = some .validated := by
    decide +kernel
  have emitted := (List.cons.inj (List.cons.inj stages).2).1
  obtain ⟨later, atLater, _, last⟩ := lives.1 1 .emitted emitted
  rw [last (Or.inr rfl)] at atLater
  refine ⟨made, stages, atLater, numbers, lives.2.1, ?_⟩
  cases asked : (new {} { width := 80 } [] echo).requests yardOperations with
  | nil =>
    rw [asked] at numbers
    cases numbers
  | cons r rest =>
    rw [asked] at validated
    exact ⟨r, rest, rfl, lives.2.2 [] r rest asked ⟨⟨.validated, validated, by decide⟩, by simp⟩⟩

end Compilation

end Grf
