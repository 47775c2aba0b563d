import Grf.Proofs.Histories

namespace Grf

namespace Lifecycle

/-- What can happen to a block: it is validated, or it answers its first request. -/
inductive Change (e : Lifecycle) : Lifecycle → Prop
  | validate : Change e e.validate
  | skip : e.stage ≠ .unvalidated → e.outcome = none → Change e .skip
  | finish (result : Except Failure (List Action)) : e.stage ≠ .unvalidated → e.outcome = none →
      Change e (e.finish result)

/-- Any number of changes, one after the other. -/
def Changes : Lifecycle → Lifecycle → Prop :=
  Relation.ReflTransGen Change

end Lifecycle

namespace Compilation

/-- A request for actions, and the compilation as it is then. -/
structure Request where
  state : Compilation
  number : Nat

namespace Request

def answer (r : Request) : Except Failure (List Action) :=
  (r.state.actions r.number).1

def after (r : Request) : Compilation :=
  (r.state.actions r.number).2

end Request

variable {c mid after : Compilation} {i j : Nat} {is : List Nat} {b : Block}

/-- The lifecycle of a declaration, a new one as long as there is no block of that number. -/
def lifecycleAt (c : Compilation) (i : Nat) : Lifecycle :=
  match c.block? i with
  | none => {}
  | some b => b.lifecycle

theorem lifecycleAt_of_block? (found : c.block? i = some b) : c.lifecycleAt i = b.lifecycle := by
  simp only [lifecycleAt, found]

theorem lifecycleAt_congr (block : after.block? i = c.block? i) :
    after.lifecycleAt i = c.lifecycleAt i := by
  unfold lifecycleAt
  rw [block]

/-- What happens between requests. Blocks may be made and validated, and the ledger may change. -/
structure Drifted (c after : Compilation) : Prop where
  changes : Ledger.Changes c.ledger after.ledger
  length : c.declarations.length ≤ after.declarations.length
  nodes : ∀ i < c.declarations.length, after.node? i = c.node? i
  lifecycles : ∀ i, after.lifecycleAt i = c.lifecycleAt i ∨
    after.lifecycleAt i = (c.lifecycleAt i).validate

namespace Drifted

/-- No declaration takes part in the change. -/
theorem of_ledger (changes : Ledger.Changes c.ledger after.ledger)
    (declarations : after.declarations = c.declarations) : Drifted c after where
  changes := changes
  length := by rw [declarations]
  nodes i _ := node?_congr declarations i
  lifecycles i := Or.inl (lifecycleAt_congr (block?_congr declarations i))

theorem of_revised (revised : Revised c after)
    (length : after.declarations.length = c.declarations.length) : Drifted c after where
  changes := by
    rw [revised.ledger]
    exact .refl
  length := Nat.le_of_eq length.symm
  nodes i _ := revised.nodes i
  lifecycles := by
    intro i
    cases found : after.block? i with
    | none =>
      have noNode : c.node? i = none := by
        rw [← revised.nodes i, node?, found, Option.map_none]
      have noBlock : c.block? i = none := by simpa only [node?, Option.map_eq_none_iff] using noNode
      exact Or.inl (lifecycleAt_congr (found.trans noBlock.symm))
    | some a =>
      obtain ⟨b, before, kept⟩ := revised.blocks i a found
      rw [lifecycleAt_of_block? found, lifecycleAt_of_block? before]
      exact kept

theorem of_progressed (progressed : Progressed c after) : Drifted c after := by
  refine .of_ledger progressed.changes ?_
  obtain ⟨_, _, _, rfl⟩ := progressed.frame
  rfl

theorem make {d : Declaration} (isNew : d.IsNew) : Drifted c (c.make d) where
  changes := .refl
  length := by simp [Compilation.make]
  nodes := by
    intro i inside
    simp only [node?, block?_make d inside]
  lifecycles := by
    intro i
    refine Or.inl ?_
    by_cases inside : i < c.declarations.length
    · exact lifecycleAt_congr (block?_make d inside)
    · have before : c.block? i = none := by
        simp [block?, List.getElem?_eq_none (Nat.le_of_not_lt inside)]
      cases found : (c.make d).block? i with
      | none => exact lifecycleAt_congr (found.trans before.symm)
      | some b =>
        have last := block?_eq_some.mp found
        simp only [Compilation.make, List.getElem?_append_right (Nat.le_of_not_lt inside)] at last
        have same := List.mem_singleton.mp (List.mem_of_getElem? last)
        subst same
        rw [lifecycleAt_of_block? found, lifecycleAt, before]
        obtain ⟨stage, outcome⟩ := isNew
        cases e : b.lifecycle with
        | mk s o =>
          rw [e] at stage outcome
          cases stage
          cases outcome
          rfl

end Drifted

theorem length_register (c : Compilation) (i : Nat) :
    (c.register i).2.declarations.length = c.declarations.length := by
  unfold register
  split
  · split
    · rfl
    · simp [update]
  · rfl

theorem length_validateOne (c : Compilation) (i : Nat) :
    (c.validateOne i).2.declarations.length = c.declarations.length := by
  unfold validateOne
  split
  · rfl
  · exact c.length_register i
  · split
    · rfl
    · simp [update]
  · simp [update]
  · simp [update]

theorem length_validateEach (c : Compilation) (is : List Nat) :
    (c.validateEach is).2.declarations.length = c.declarations.length := by
  induction is generalizing c with
  | nil => rfl
  | cons i rest ih =>
    have first := c.length_validateOne i
    unfold validateEach
    split
    · rename_i run
      rwa [run] at first
    · rename_i run
      rw [run] at first
      exact (ih _).trans first

theorem declarations_add (c : Compilation) (i : Nat) :
    (c.add i).2.declarations = c.declarations := by
  rcases c.add_eq_self_or i with same | ⟨bound, run⟩
  · rw [same]
  · rcases add_cases bound run with ⟨_, added⟩ | ⟨_, _, _, added⟩ <;> rw [added]

theorem declarations_use (c : Compilation) (id : Identifier) (f : Feature) :
    (c.use id f).2.declarations = c.declarations := by
  rcases c.use_cases id f with same | ⟨_, used⟩
  · rw [same]
  · rw [used]

theorem declarations_propagate (c : Compilation) : c.propagate.2.declarations = c.declarations := by
  unfold propagate
  split <;> rfl

/-- Whether linking succeeds or not, all it does is to draw edges. -/
theorem linkEach_draws (c : Compilation) (source : Node) (references : List Reference) :
    ∃ edges, (c.linkEach source references).2 = c.draw edges := by
  induction references generalizing c with
  | nil => exact ⟨[], (draw_nil c).symm⟩
  | cons r rest ih =>
    unfold linkEach
    split
    · exact ⟨[], (draw_nil c).symm⟩
    · rename_i target _
      split
      · split
        · exact ⟨[], (draw_nil c).symm⟩
        · rename_i ledger linked
          obtain ⟨_, rfl⟩ := Ledger.link_eq_ok.mp linked
          obtain ⟨edges, drawn⟩ := ih (c.draw [(source, target)])
          exact ⟨(source, target) :: edges, drawn.trans (draw_draw c _ _)⟩
      · exact ⟨[], (draw_nil c).symm⟩

theorem linkAll_draws (c : Compilation) (is : List Nat) :
    ∃ edges, (c.linkAll is).2 = c.draw edges := by
  induction is generalizing c with
  | nil => exact ⟨[], (draw_nil c).symm⟩
  | cons i rest ih =>
    unfold linkAll
    split
    · exact ih c
    · rename_i b _
      obtain ⟨first, drawn⟩ := c.linkEach_draws (b.node i) b.references
      split
      · rename_i run
        rw [run] at drawn
        exact ⟨first, drawn⟩
      · rename_i run
        rw [run] at drawn
        dsimp only at drawn
        subst drawn
        obtain ⟨others, drawn⟩ := ih (c.draw first)
        exact ⟨first ++ others, drawn.trans (draw_draw c first others)⟩

theorem link_draws (c : Compilation) : ∃ edges, c.link.2 = c.draw edges := by
  obtain ⟨edges, drawn⟩ := c.linkAll_draws c.script
  refine ⟨edges, ?_⟩
  unfold link
  split <;> rename_i run <;> rwa [run] at drawn

/-- Only the first request of a block does anything. -/
theorem actions_cases (c : Compilation) (i : Nat) :
    (c.actions i).2 = c ∨ ∃ b, c.block? i = some b ∧ b.standing? = none := by
  cases found : c.block? i with
  | none => exact Or.inl (by rw [actions_none found])
  | some b =>
    cases standing : b.standing? with
    | some answer => exact Or.inl (by rw [actions_standing found standing])
    | none => exact Or.inr ⟨b, rfl, standing⟩

theorem actions_changes (c : Compilation) (i : Nat) :
    Ledger.Changes c.ledger (c.actions i).2.ledger := by
  rcases c.actions_cases i with same | ⟨b, found, pending⟩
  · rw [same]
    exact .refl
  · rw [actions_reply found pending]
    exact (c.prepare_progressed i).changes

/-- The first request changes the block that is asked, and no other one. -/
theorem block?_actions (found : c.block? i = some b) (pending : b.standing? = none) (j : Nat) :
    (c.actions i).2.block? j =
      if j = i then some ((c.prepare i).2.reply i b (c.prepare i).1).2.2 else c.block? j := by
  have progressed := c.prepare_progressed i
  rw [actions_reply found pending, block?_replied ((progressed.block? i).trans found),
    progressed.block?]

theorem length_actions (c : Compilation) (i : Nat) :
    (c.actions i).2.declarations.length = c.declarations.length := by
  rcases c.actions_cases i with same | ⟨b, found, pending⟩
  · rw [same]
  · obtain ⟨_, _, _, frame⟩ := (c.prepare_progressed i).frame
    rw [actions_reply found pending, frame]
    simp [replied, update]

theorem node?_actions (c : Compilation) (i j : Nat) : (c.actions i).2.node? j = c.node? j := by
  rcases c.actions_cases i with same | ⟨b, found, pending⟩
  · rw [same]
  · unfold node?
    rw [block?_actions found pending]
    split
    · rename_i same
      rw [same, found, Option.map_some, Option.map_some, reply_node]
    · rfl

theorem lifecycle_reply (c : Compilation) (i : Nat) (b : Block) (used : Except Failure Bool) :
    (c.reply i b used).2.2.lifecycle =
      if used = .ok false then .skip else b.lifecycle.finish (c.reply i b used).1 := by
  cases used with
  | error failure => exact b.lifecycle_withLifecycle _
  | ok used =>
    cases used with
    | false => exact b.lifecycle_withLifecycle _
    | true =>
      simp only [reply, Block.lifecycle_withLifecycle, encode_lifecycle, Except.ok.injEq,
        Bool.true_eq_false, if_false]

theorem lifecycleAt_actions_of_ne (apart : j ≠ i) (c : Compilation) :
    (c.actions i).2.lifecycleAt j = c.lifecycleAt j := by
  rcases c.actions_cases i with same | ⟨b, found, pending⟩
  · rw [same]
  · exact lifecycleAt_congr ((block?_actions found pending j).trans (if_neg apart))

theorem lifecycleAt_actions (c : Compilation) (i j : Nat) :
    Lifecycle.Changes (c.lifecycleAt j) ((c.actions i).2.lifecycleAt j) := by
  by_cases here : j = i
  · subst here
    rcases c.actions_cases j with same | ⟨b, found, pending⟩
    · rw [same]
      exact .refl
    · have block := block?_actions found pending j
      obtain ⟨validated, unrequested⟩ := Block.standing?_eq_none.mp pending
      rw [if_pos rfl] at block
      rw [lifecycleAt_of_block? block, lifecycleAt_of_block? found, lifecycle_reply]
      split
      · exact .single (.skip validated unrequested)
      · exact .single (.finish _ validated unrequested)
  · rw [lifecycleAt_actions_of_ne here]
    exact .refl

/-- From one compilation to another one, with these requests on the way. -/
inductive Course : Compilation → List Request → Compilation → Prop
  | refl (c : Compilation) : Course c [] c
  | drift {start next last : Compilation} {requests : List Request} :
      Drifted start next → Course next requests last → Course start requests last
  | ask {start last : Compilation} {i : Nat} {requests : List Request} :
      Course (start.actions i).2 requests last → Course start (⟨start, i⟩ :: requests) last

namespace Course

variable {requests more earlier later : List Request} {r : Request}

theorem trans (first : Course c requests mid) (second : Course mid more after) :
    Course c (requests ++ more) after := by
  induction first with
  | refl => exact second
  | drift drifted _ ih => exact .drift drifted (ih second)
  | ask _ ih => exact .ask (ih second)

theorem split (course : Course c (earlier ++ r :: later) after) :
    Course c earlier r.state ∧ Course r.after later after := by
  generalize whole : earlier ++ r :: later = requests at course
  induction course generalizing earlier with
  | refl => simp at whole
  | drift drifted _ ih =>
    obtain ⟨first, second⟩ := ih whole
    exact ⟨.drift drifted first, second⟩
  | ask course ih =>
    cases earlier with
    | nil =>
      cases whole
      exact ⟨.refl _, course⟩
    | cons s rest =>
      obtain ⟨same, rest⟩ := List.cons.inj whole
      subst same
      obtain ⟨first, second⟩ := ih rest
      exact ⟨.ask first, second⟩

theorem changes (course : Course c requests after) : Ledger.Changes c.ledger after.ledger := by
  induction course with
  | refl => exact .refl
  | drift drifted _ ih => exact drifted.changes.trans ih
  | ask _ ih => exact (actions_changes _ _).trans ih

theorem lifecycles (course : Course c requests after) (i : Nat) :
    Lifecycle.Changes (c.lifecycleAt i) (after.lifecycleAt i) := by
  induction course with
  | refl => exact .refl
  | drift drifted _ ih =>
    rcases drifted.lifecycles i with same | validated
    · rwa [same] at ih
    · rw [validated] at ih
      exact .head .validate ih
  | ask _ ih => exact (lifecycleAt_actions _ _ i).trans ih

/-- A declaration keeps its node. -/
theorem nodes (course : Course c requests after) (inside : i < c.declarations.length) :
    after.node? i = c.node? i := by
  induction course with
  | refl => rfl
  | drift drifted _ ih =>
    exact (ih (Nat.lt_of_lt_of_le inside drifted.length)).trans (drifted.nodes i inside)
  | ask _ ih =>
    rw [length_actions] at ih
    exact (ih inside).trans (node?_actions _ _ i)

end Course

/-- The requests in the order of a schedule. -/
def scheduleRequests (c : Compilation) : List Nat → List Request
  | [] => []
  | place :: rest =>
    match c.script[place]? with
    | none => c.scheduleRequests rest
    | some i => ⟨c, i⟩ :: (c.actions i).2.scheduleRequests rest

/-- The requests that an operation makes. -/
def requestsOf (c : Compilation) : Operation → List Request
  | .actions i => [⟨c, i⟩]
  | .generate schedule =>
    match prepareEach { c with log := c.log.beginPhase "Preparing" } c.script with
    | (.error _, _) => []
    | (.ok _, c) =>
      scheduleRequests { c with log := (c.log.closePhase true).beginPhase "Generating" } schedule
  | _ => []

/-- The requests that operations make, one after the other. -/
def requests (c : Compilation) : List Operation → List Request
  | [] => []
  | operation :: rest => c.requestsOf operation ++ (c.perform operation).requests rest

theorem actionsAt_course (c : Compilation) (schedule : List Nat) :
    Course c (c.scheduleRequests schedule) (c.actionsAt schedule).2 := by
  induction schedule generalizing c with
  | nil => exact .refl c
  | cons place rest ih =>
    cases atPlace : c.script[place]? with
    | none =>
      simp only [scheduleRequests, actionsAt, atPlace]
      exact ih c
    | some i =>
      simp only [scheduleRequests, actionsAt, atPlace]
      exact .ask (ih _)

theorem Drifted.log (c : Compilation) (log : Log) : Drifted c { c with log } :=
  .of_ledger .refl rfl

theorem Drifted.course (drifted : Drifted c after) : Course c [] after :=
  .drift drifted (.refl after)

theorem concludeBy_course (c : Compilation) (schedule : List Nat) :
    Course c (c.scheduleRequests schedule) (c.concludeBy schedule).2 := by
  rw [← List.append_nil (c.scheduleRequests schedule)]
  exact (c.actionsAt_course schedule).trans (Drifted.log _ _).course

theorem generateBy_course (c : Compilation) (schedule : List Nat) :
    Course c (c.requestsOf (.generate schedule)) (c.generateBy schedule).2 := by
  have prepared := prepareEach_progressed { c with log := c.log.beginPhase "Preparing" } c.script
  refine .drift (.log c (c.log.beginPhase "Preparing")) ?_
  cases run : prepareEach { c with log := c.log.beginPhase "Preparing" } c.script with
  | mk result mid =>
    rw [run] at prepared
    cases result with
    | error failure =>
      simp only [requestsOf, run, generateBy_unprepared run]
      exact .drift (.of_progressed prepared) (Drifted.log mid _).course
    | ok =>
      simp only [requestsOf, run, generateBy_prepared run]
      exact .drift (.of_progressed prepared) (.drift (.log mid _) (concludeBy_course _ schedule))

theorem perform_course (c : Compilation) (operation : Operation)
    (made : ∀ d, operation = .make d → d.IsNew) :
    Course c (c.requestsOf operation) (c.perform operation) := by
  cases operation with
  | make d => exact (Drifted.make (made d rfl)).course
  | add i => exact (Drifted.of_ledger (c.add_quiet i).changes (c.declarations_add i)).course
  | register i =>
    exact (Drifted.of_revised (register_revised rfl).1 (c.length_register i)).course
  | validateOne i =>
    exact (Drifted.of_revised (validateOne_revised rfl).1 (c.length_validateOne i)).course
  | validate =>
    exact (Drifted.of_revised (validateEach_revised rfl).1 (c.length_validateEach _)).course
  | link =>
    obtain ⟨_, drawn⟩ := c.link_draws
    exact (Drifted.of_ledger c.link_quiet.changes (by rw [drawn]; rfl)).course
  | use id f =>
    exact (Drifted.of_ledger (c.use_quiet id f).changes (c.declarations_use id f)).course
  | propagate =>
    exact (Drifted.of_ledger c.propagate_quiet.changes c.declarations_propagate).course
  | prepare i => exact (Drifted.of_progressed (c.prepare_progressed i)).course
  | actions i => exact .ask (.refl _)
  | generate schedule => exact c.generateBy_course schedule
  | equip backend =>
    have drifted : Drifted c { c with backend } := .of_ledger .refl rfl
    exact drifted.course

theorem performAll_course (c : Compilation) (operations : List Operation)
    (made : ∀ d, .make d ∈ operations → d.IsNew) :
    Course c (c.requests operations) (c.performAll operations) := by
  induction operations generalizing c with
  | nil => exact .refl c
  | cons operation rest ih =>
    have first := c.perform_course operation fun d same => made d (same ▸ List.mem_cons_self)
    exact first.trans (ih _ fun d member => made d (List.mem_cons_of_mem _ member))

end Compilation

end Grf
