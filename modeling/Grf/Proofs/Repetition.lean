import Grf.Proofs.Schedules

namespace Grf

namespace Log

theorem phase_closePhase (log : Log) (succeeded : Bool) :
    (log.closePhase succeeded).phase = "" := by
  unfold closePhase endPhase
  split
  · assumption
  · rfl

/-- A phase from its begin to its end shows at most that it is over. -/
theorem closePhase_beginPhase (log : Log) (idle : log.phase = "") (phase : String)
    (succeeded : Bool) :
    ∃ transcript, (log.beginPhase phase).closePhase succeeded = { log with transcript } := by
  unfold closePhase endPhase
  split
  · rename_i empty
    have unnamed : phase = "" := empty
    refine ⟨log.transcript, ?_⟩
    rw [unnamed, ← idle]
    rfl
  · exact ⟨_, by rw [← idle]; rfl⟩

end Log

namespace Compilation

variable {c mid after : Compilation} {i j : Nat} {is schedule again : List Nat} {b : Block}
  {failure : Failure}

theorem Decided.congr (decided : c.Decided i) (ledger : after.ledger = c.ledger)
    (node : after.node? i = c.node? i) : after.Decided i := by
  intro n found
  rw [ledger]
  exact decided n (node.symm.trans found)

/-- Declarations that the ledger has decided about are passed over. -/
theorem prepareEach_decided (decided : ∀ i ∈ is, c.Decided i) (rest : List Nat) :
    c.prepareEach (is ++ rest) = c.prepareEach rest := by
  induction is with
  | nil => rfl
  | cons i is ih =>
    obtain ⟨here, later⟩ := List.forall_mem_cons.mp decided
    obtain ⟨used, prepared⟩ := here.prepare_eq
    rw [List.cons_append, prepareEach, prepared]
    exact ih later

theorem prepareEach_stops_again (run : c.prepareEach is = (.error failure, mid))
    (ledger : after.ledger = mid.ledger) (declarations : after.declarations = mid.declarations) :
    after.prepareEach is = (.error failure, after) := by
  obtain ⟨before, i, rest, rfl, prepared, failed⟩ := prepareEach_error run
  have decided := prepareEach_decides prepared
  have nodes := node?_congr declarations
  have stays : after.prepare i = (.error failure, after) :=
    prepare_failed ((prepare_congr ledger (nodes i)).trans (congrArg Prod.fst failed))
  rw [prepareEach_decided fun j member => (decided j member).congr ledger (nodes j), prepareEach,
    stays]

/-- The declaration has its answer, so a request calls nobody. -/
def Settled (c : Compilation) (i : Nat) : Prop :=
  ∀ b, c.block? i = some b → ∃ answer, b.standing? = some answer

namespace Settled

theorem actions_eq (settled : c.Settled i) : c.actions i = ((c.actions i).1, c) := by
  cases found : c.block? i with
  | none => rw [actions_none found]
  | some b =>
    obtain ⟨answer, standing⟩ := settled b found
    rw [actions_standing found standing]

theorem actions_congr (settled : c.Settled i) (block : after.block? i = c.block? i) :
    (after.actions i).1 = (c.actions i).1 := by
  cases found : c.block? i with
  | none => rw [actions_none found, actions_none (block.trans found)]
  | some b =>
    obtain ⟨answer, standing⟩ := settled b found
    rw [actions_standing found standing, actions_standing (block.trans found) standing]

end Settled

/-- A request leaves its declaration with an answer. -/
theorem settled_actions (c : Compilation) (i : Nat) : (c.actions i).2.Settled i := by
  intro b atI
  cases found : c.block? i with
  | none =>
    rw [actions_none found] at atI
    rw [found] at atI
    cases atI
  | some a =>
    cases standing : a.standing? with
    | some answer =>
      rw [actions_standing found standing, found] at atI
      cases atI
      exact ⟨answer, standing⟩
    | none =>
      have validated := (Block.standing?_eq_none.mp standing).1
      have prepared := ((c.prepare_progressed i).block? i).trans found
      rw [actions_reply found standing, block?_replied prepared, if_pos rfl] at atI
      cases atI
      exact ⟨_, reply_standing validated _ i _⟩

theorem Settled.actions (settled : c.Settled j) (decided : c.Decided i) :
    (c.actions i).2.Settled j := by
  by_cases same : j = i
  · rw [same]
    exact c.settled_actions i
  · intro b found
    rw [decided.asked.others j (by simpa using same)] at found
    exact settled b found

theorem requestAll_settled (decided : ∀ i ∈ is, c.Decided i)
    (settled : j ∈ is ∨ c.Settled j) : (c.requestAll is).Settled j := by
  induction is generalizing c with
  | nil => exact settled.resolve_left List.not_mem_nil
  | cons i rest ih =>
    obtain ⟨first, later⟩ := List.forall_mem_cons.mp decided
    refine ih (fun k member => first.asked.decided (later k member)) ?_
    rcases settled with member | settled
    · rcases List.mem_cons.mp member with same | waits
      · subst same
        exact Or.inr (c.settled_actions j)
      · exact Or.inl waits
    · exact Or.inr (settled.actions first)

theorem requestAll_eq (settled : ∀ i ∈ is, c.Settled i) : c.requestAll is = c := by
  induction is with
  | nil => rfl
  | cons i rest ih =>
    obtain ⟨here, later⟩ := List.forall_mem_cons.mp settled
    have first : (c.actions i).2 = c := congrArg Prod.snd here.actions_eq
    rw [requestAll, List.foldl_cons, first]
    exact ih later

theorem decided_again (decided : ∀ i ∈ c.script, c.Decided i) (ledger : after.ledger = c.ledger)
    (script : after.script = c.script)
    (declarations : after.declarations = (c.requestAll (c.requested schedule)).declarations) :
    ∀ i ∈ after.script, after.Decided i := by
  intro i member
  have asked := requestAll_asked (decided_requested decided schedule)
  have decidedThen := asked.decided (decided i (script ▸ member))
  exact decidedThen.congr (ledger.trans asked.ledger.symm) (node?_congr declarations i)

/-- All that the second phase gave as answers, it gives once more, and no backend takes part in
that. -/
theorem concludeBy_again (decided : ∀ i ∈ c.script, c.Decided i) (perm : schedule.Perm c.places)
    (permAgain : again.Perm c.places) (ledger : after.ledger = c.ledger)
    (script : after.script = c.script)
    (declarations : after.declarations = (c.requestAll (c.requested schedule)).declarations) :
    after.concludeBy again = ((c.concludeBy schedule).1,
      { after with log := after.log.closePhase (c.concludeBy schedule).1.isOk }) := by
  have each := decided_requested decided schedule
  have decidedAfter := decided_again decided ledger script declarations
  have samePlaces : after.places = c.places := by rw [places, script, places]
  have whole : ∀ i ∈ c.script, i ∈ c.requested schedule := by
    intro i member
    rw [← c.requested_places] at member
    exact (perm.filterMap _).mem_iff.mpr member
  have settled : ∀ i ∈ c.script, after.Settled i := by
    intro i member b found
    rw [block?_congr declarations] at found
    exact requestAll_settled each (Or.inl (whole i member)) b found
  have answer : ∀ i ∈ c.script, (after.actions i).1 = (c.actions i).1 := by
    intro i member
    have before := requestAll_settled each (Or.inl (whole i member))
    rw [before.actions_congr (block?_congr declarations i)]
    exact actions_requestAll each (decided i member)
  have sameAnswers : after.answers c.places = c.answers c.places := by
    unfold answers
    rw [script]
    refine List.filterMap_congr fun place _ => ?_
    cases atPlace : c.script[place]? with
    | none => rfl
    | some i => simp only [Option.map_some, answer i (List.mem_of_getElem? atPlace)]
  have unchanged : after.requestAll (after.requested again) = after := by
    refine requestAll_eq fun i member => settled i ?_
    obtain ⟨place, _, atPlace⟩ := List.mem_filterMap.mp member
    rw [script] at atPlace
    exact List.mem_of_getElem? atPlace
  rw [← samePlaces] at permAgain
  rw [concludeBy_eq decidedAfter permAgain, concludeBy_eq decided perm, samePlaces, sameAnswers,
    unchanged]

/-- The first phase stops at once where it has stopped before. -/
theorem generateBy_stopped (after : Compilation)
    (run : c.prepareEach after.script = (.error failure, mid))
    (ledger : after.ledger = mid.ledger) (declarations : after.declarations = mid.declarations)
    (idle : after.log.phase = "") (again : List Nat) :
    ∃ transcript, after.generateBy again =
      (.error failure, { after with log := { after.log with transcript } }) := by
  have stops (log : Log) : prepareEach { after with log } after.script =
      (.error failure, { after with log }) :=
    prepareEach_stops_again run ledger declarations
  obtain ⟨transcript, shown⟩ := Log.closePhase_beginPhase after.log idle "Preparing" false
  refine ⟨transcript, ?_⟩
  rw [generateBy_unprepared (stops _), shown]

/-- The first phase passes over all declarations, and the second one repeats the answers. -/
theorem generateBy_concluded (after : Compilation) (decided : ∀ i ∈ c.script, c.Decided i)
    (first : schedule.Perm c.places)
    (second : again.Perm c.places) (ledger : after.ledger = c.ledger)
    (script : after.script = c.script)
    (declarations : after.declarations = (c.requestAll (c.requested schedule)).declarations)
    (idle : after.log.phase = "") :
    ∃ transcript, after.generateBy again =
      ((c.concludeBy schedule).1, { after with log := { after.log with transcript } }) := by
  have decidedAfter := decided_again decided ledger script declarations
  have prepared (log : Log) : prepareEach { after with log } after.script =
      (.ok (), { after with log }) := by
    have passed := prepareEach_decided (c := { after with log }) decidedAfter []
    rwa [List.append_nil] at passed
  have concluded (log : Log) : concludeBy again { after with log } =
      ((c.concludeBy schedule).1,
        { after with log := log.closePhase (c.concludeBy schedule).1.isOk }) :=
    concludeBy_again decided first second ledger script declarations
  obtain ⟨_, shownFirst⟩ := Log.closePhase_beginPhase after.log idle "Preparing" true
  obtain ⟨transcript, shownSecond⟩ := Log.closePhase_beginPhase
    ((after.log.beginPhase "Preparing").closePhase true) (Log.phase_closePhase _ _)
    "Generating" (c.concludeBy schedule).1.isOk
  refine ⟨transcript, ?_⟩
  rw [generateBy_prepared (prepared _), concluded, shownSecond, shownFirst]

theorem phase_generateBy (c : Compilation) (schedule : List Nat) :
    (c.generateBy schedule).2.log.phase = "" := by
  unfold generateBy
  dsimp only
  split
  · exact Log.phase_closePhase _ _
  · split <;> exact Log.phase_closePhase _ _

/-- Making the output a second time gives the same actions or the same failure, in whatever state
the compilation was, and even if the backend is another one by then. No call is made, and nothing
changes but for the phases that are shown. -/
theorem generateBy_idempotent (c : Compilation) (first : schedule.Perm c.places)
    (second : again.Perm c.places) (backend : Backend) :
    ∃ transcript, generateBy again { (c.generateBy schedule).2 with backend } =
      ((c.generateBy schedule).1,
        { (c.generateBy schedule).2 with
          backend, log := { (c.generateBy schedule).2.log with transcript } }) := by
  have idle := c.phase_generateBy schedule
  have progressed := prepareEach_progressed { c with log := c.log.beginPhase "Preparing" } c.script
  cases run : prepareEach { c with log := c.log.beginPhase "Preparing" } c.script with
  | mk result mid =>
    rw [run] at progressed
    have script : mid.script = c.script := by
      obtain ⟨_, _, _, rfl⟩ := progressed.frame
      rfl
    cases result with
    | error failure =>
      rw [generateBy_unprepared run] at idle ⊢
      rw [← script] at run
      exact generateBy_stopped { mid with log := mid.log.closePhase false, backend } run rfl rfl idle
        again
    | ok =>
      let start : Compilation :=
        { mid with log := (mid.log.closePhase true).beginPhase "Generating" }
      have decided : ∀ i ∈ start.script, start.Decided i := by
        have each := prepareEach_decides run
        rwa [← script] at each
      have samePlaces : c.places = start.places := by rw [places, ← script, places]
      rw [samePlaces] at first second
      have concluded : c.generateBy schedule = start.concludeBy schedule :=
        generateBy_prepared run schedule
      have asked := requestAll_asked (decided_requested decided schedule)
      have state := congrArg Prod.snd (concludeBy_eq decided first)
      rw [concluded] at idle ⊢
      exact generateBy_concluded { (start.concludeBy schedule).2 with backend } decided
        first second (by rw [state]; exact asked.ledger) (by rw [state]; exact asked.script)
        (by rw [state]) idle

/-- The encoders of the yard fail the first time. Later ones that would not fail are not asked. -/
theorem generateBy_idempotent_closedYard :
    [3, 2, 1, 0].Perm closedYard.places ∧
      (generateBy [0, 1, 2, 3] { (closedYard.generateBy [3, 2, 1, 0]).2 with backend := echo }).1 =
        (closedYard.generateBy [3, 2, 1, 0]).1 ∧
      (generateBy [0, 1, 2, 3]
        { (closedYard.generateBy [3, 2, 1, 0]).2 with backend := echo }).2.calls.length = 3 := by
  have first : [3, 2, 1, 0].Perm closedYard.places := by decide +kernel
  have second : [0, 1, 2, 3].Perm closedYard.places := by decide +kernel
  have calls : (closedYard.generateBy [3, 2, 1, 0]).2.calls.length = 3 := by decide +kernel
  obtain ⟨transcript, run⟩ := closedYard.generateBy_idempotent first second echo
  rw [run]
  exact ⟨first, rfl, calls⟩

end Compilation

end Grf
