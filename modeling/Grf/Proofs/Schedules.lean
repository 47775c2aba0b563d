import Grf.Proofs.Decisions
import Grf.Proofs.Output
import Grf.Proofs.Replies

namespace Grf.Compilation

variable {c mid after : Compilation} {i j : Nat} {is js schedule : List Nat} {b : Block}
  {failure : Failure}

/-- Nothing differs but the order of the calls. -/
def Reordered (c after : Compilation) : Prop :=
  ∃ calls, c.calls.Perm calls ∧ after = { c with calls }

namespace Reordered

theorem refl (c : Compilation) : Reordered c c :=
  ⟨c.calls, .refl _, rfl⟩

theorem trans (first : Reordered c mid) (second : Reordered mid after) : Reordered c after := by
  obtain ⟨_, perm, rfl⟩ := first
  obtain ⟨calls, permLater, rfl⟩ := second
  exact ⟨calls, perm.trans permLater, rfl⟩

theorem withLog (reordered : Reordered c after) (log : Log) :
    Reordered { c with log } { after with log } := by
  obtain ⟨calls, perm, rfl⟩ := reordered
  exact ⟨calls, perm, rfl⟩

end Reordered

theorem replied_self (found : c.block? i = some b) : c.replied i [] b = c := by
  obtain ⟨inside, here⟩ := List.getElem?_eq_some_iff.mp (block?_eq_some.mp found)
  simp only [replied, update, List.append_nil, ← here, List.set_getElem_self]

theorem replied_comm (apart : i ≠ j) (c : Compilation) (calls others : List Call) (a b : Block) :
    Reordered ((c.replied i calls a).replied j others b)
      ((c.replied j others b).replied i calls a) := by
  refine ⟨c.calls ++ others ++ calls, ?_, ?_⟩
  · show (c.calls ++ calls ++ others).Perm (c.calls ++ others ++ calls)
    rw [List.append_assoc, List.append_assoc]
    exact List.perm_append_comm.append_left _
  · simp only [replied, update, List.set_comm _ _ apart]

theorem Reordered.replied (reordered : Reordered c after) (i : Nat) (calls : List Call)
    (b : Block) : Reordered (c.replied i calls b) (after.replied i calls b) := by
  obtain ⟨others, perm, rfl⟩ := reordered
  exact ⟨others ++ calls, perm.append_right calls, rfl⟩

/-- What a block answers once the ledger has decided about it, the calls that this takes and the
block from then on. -/
def response (c : Compilation) (i : Nat) (b : Block) :
    Except Failure (List Action) × List Call × Block :=
  match b.standing? with
  | some answer => (answer, [], b)
  | none => c.reply i b (c.prepare i).1

theorem response_congr (ledger : after.ledger = c.ledger) (backend : after.backend = c.backend)
    (node : after.node? i = c.node? i) (b : Block) : after.response i b = c.response i b := by
  simp only [response, reply_congr ledger backend, prepare_congr ledger node]

theorem response_node (c : Compilation) (i : Nat) (b : Block) :
    (c.response i b).2.2.node i = b.node i := by
  unfold response
  split
  · rfl
  · exact c.reply_node i b _

theorem Decided.actions_eq (decided : c.Decided i) (found : c.block? i = some b) :
    c.actions i =
      ((c.response i b).1, c.replied i (c.response i b).2.1 (c.response i b).2.2) := by
  unfold response
  cases standing : b.standing? with
  | some answer => rw [actions_standing found standing, replied_self found]
  | none =>
    obtain ⟨used, prepared⟩ := decided.prepare_eq
    rw [actions_reply found standing, prepared]

/-- Declarations were asked for actions, all of them among `is`. -/
structure Asked (c : Compilation) (is : List Nat) (after : Compilation) : Prop where
  ledger : after.ledger = c.ledger
  log : after.log = c.log
  script : after.script = c.script
  backend : after.backend = c.backend
  nodes : ∀ j, after.node? j = c.node? j
  others : ∀ j, j ∉ is → after.block? j = c.block? j

theorem Asked.decided (asked : Asked c is after) (decided : c.Decided j) : after.Decided j := by
  intro n found
  rw [asked.nodes] at found
  rw [asked.ledger]
  exact decided n found

theorem Decided.asked (decided : c.Decided i) : Asked c [i] (c.actions i).2 := by
  cases found : c.block? i with
  | none =>
    rw [actions_none found]
    exact ⟨rfl, rfl, rfl, rfl, fun _ => rfl, fun _ _ => rfl⟩
  | some b =>
    rw [decided.actions_eq found]
    refine ⟨rfl, rfl, rfl, rfl, node?_update found (c.response_node i b), ?_⟩
    intro j apart
    exact (block?_replied found _ _ j).trans (if_neg (List.ne_of_not_mem_cons apart))

theorem Decided.actions_congr (decided : c.Decided i) (ledger : after.ledger = c.ledger)
    (backend : after.backend = c.backend) (block : after.block? i = c.block? i) :
    (after.actions i).1 = (c.actions i).1 := by
  have node : after.node? i = c.node? i := congrArg _ block
  have decidedAfter : after.Decided i := by
    intro n found
    rw [ledger]
    exact decided n (node.symm.trans found)
  cases found : c.block? i with
  | none => rw [actions_none found, actions_none (block.trans found)]
  | some b =>
    rw [decided.actions_eq found, decidedAfter.actions_eq (block.trans found),
      response_congr ledger backend node]

theorem Reordered.asked (reordered : Reordered c after) : Asked c [] after := by
  obtain ⟨calls, _, rfl⟩ := reordered
  exact ⟨rfl, rfl, rfl, rfl, fun _ => rfl, fun _ _ => rfl⟩

theorem Reordered.actions (reordered : Reordered c after) (decided : c.Decided i) :
    Reordered (c.actions i).2 (after.actions i).2 := by
  have asked := reordered.asked
  have block : after.block? i = c.block? i := asked.others i List.not_mem_nil
  cases found : c.block? i with
  | none => rwa [actions_none found, actions_none (block.trans found)]
  | some b =>
    rw [decided.actions_eq found, (asked.decided decided).actions_eq (block.trans found),
      response_congr asked.ledger asked.backend (asked.nodes i)]
    exact reordered.replied i _ _

/-- A second request gets the answer to the first. -/
theorem actions_again (c : Compilation) (i : Nat) :
    ((c.actions i).2.actions i).1 = (c.actions i).1 := by
  cases found : c.block? i with
  | none => rw [actions_none found, actions_none found]
  | some b =>
    cases standing : b.standing? with
    | some answer => rw [actions_standing found standing, actions_standing found standing]
    | none =>
      have prepared := ((c.prepare_progressed i).block? i).trans found
      have validated := (Block.standing?_eq_none.mp standing).1
      rw [actions_reply found standing]
      refine congrArg Prod.fst (actions_standing ?_ (reply_standing validated _ i _))
      rw [block?_replied prepared, if_pos rfl]

/-- No answer depends on a request before it. -/
theorem Decided.actions_after (first : c.Decided i) (second : c.Decided j) :
    ((c.actions i).2.actions j).1 = (c.actions j).1 := by
  have asked := first.asked
  by_cases same : j = i
  · subst same
    exact c.actions_again j
  · exact second.actions_congr asked.ledger asked.backend
      (asked.others j (by simpa using same))

theorem Decided.actions_comm (first : c.Decided i) (second : c.Decided j) (apart : i ≠ j) :
    Reordered ((c.actions i).2.actions j).2 ((c.actions j).2.actions i).2 := by
  have keepsJ : (c.actions i).2.block? j = c.block? j :=
    first.asked.others j (by simpa using apart.symm)
  have keepsI : (c.actions j).2.block? i = c.block? i :=
    second.asked.others i (by simpa using apart)
  cases atI : c.block? i with
  | none =>
    rw [actions_none atI, actions_none (keepsI.trans atI)]
    exact .refl _
  | some a =>
    cases atJ : c.block? j with
    | none =>
      rw [actions_none atJ, actions_none (keepsJ.trans atJ)]
      exact .refl _
    | some b =>
      have askedI := first.asked
      have askedJ := second.asked
      rw [(askedI.decided second).actions_eq (keepsJ.trans atJ),
        (askedJ.decided first).actions_eq (keepsI.trans atI),
        response_congr askedI.ledger askedI.backend (askedI.nodes j),
        response_congr askedJ.ledger askedJ.backend (askedJ.nodes i),
        first.actions_eq atI, second.actions_eq atJ]
      exact replied_comm apart c _ _ _ _

/-- The compilation after requests, one after the other. -/
def requestAll (c : Compilation) (is : List Nat) : Compilation :=
  is.foldl (fun c i => (c.actions i).2) c

theorem requestAll_asked (decided : ∀ i ∈ is, c.Decided i) : Asked c is (c.requestAll is) := by
  induction is generalizing c with
  | nil => exact ⟨rfl, rfl, rfl, rfl, fun _ => rfl, fun _ _ => rfl⟩
  | cons i rest ih =>
    obtain ⟨here, later⟩ := List.forall_mem_cons.mp decided
    have first := here.asked
    have second := ih fun j member => first.decided (later j member)
    refine ⟨second.ledger.trans first.ledger, second.log.trans first.log,
      second.script.trans first.script, second.backend.trans first.backend,
      fun j => (second.nodes j).trans (first.nodes j), ?_⟩
    intro j apart
    obtain ⟨different, notLater⟩ := not_or.mp (List.mem_cons.not.mp apart)
    exact (second.others j notLater).trans (first.others j (by simpa using different))

theorem actions_requestAll (decided : ∀ i ∈ is, c.Decided i) (here : c.Decided j) :
    ((c.requestAll is).actions j).1 = (c.actions j).1 := by
  induction is generalizing c with
  | nil => rfl
  | cons i rest ih =>
    obtain ⟨first, later⟩ := List.forall_mem_cons.mp decided
    have asked := first.asked
    exact (ih (fun k member => asked.decided (later k member)) (asked.decided here)).trans
      (first.actions_after here)

theorem Reordered.requestAll (reordered : Reordered c after) (decided : ∀ i ∈ is, c.Decided i) :
    Reordered (c.requestAll is) (after.requestAll is) := by
  induction is generalizing c after with
  | nil => exact reordered
  | cons i rest ih =>
    obtain ⟨first, later⟩ := List.forall_mem_cons.mp decided
    exact ih (reordered.actions first) fun j member => first.asked.decided (later j member)

/-- The order of the requests shows in that of the calls only. -/
theorem requestAll_perm (perm : is.Perm js) (decided : ∀ i ∈ is, c.Decided i) :
    Reordered (c.requestAll is) (c.requestAll js) := by
  induction perm generalizing c with
  | nil => exact .refl c
  | cons i _ ih =>
    obtain ⟨first, later⟩ := List.forall_mem_cons.mp decided
    exact ih fun j member => first.asked.decided (later j member)
  | swap i j rest =>
    by_cases same : j = i
    · -- A script may have one declaration at two places.
      subst same
      exact .refl _
    · obtain ⟨first, later⟩ := List.forall_mem_cons.mp decided
      obtain ⟨second, later⟩ := List.forall_mem_cons.mp later
      refine (first.actions_comm second same).requestAll ?_
      intro k member
      have asked := (first.asked.decided second).asked
      exact asked.decided (first.asked.decided (later k member))
  | trans perm _ ihFirst ihSecond =>
    exact (ihFirst decided).trans (ihSecond fun i member => decided i (perm.mem_iff.mpr member))

/-- The answer of each declaration, with its place. -/
def answers (c : Compilation) (schedule : List Nat) : List (Nat × Except Failure (List Action)) :=
  schedule.filterMap fun place =>
    (c.script[place]?.map fun i => (c.actions i).1).map fun answer => (place, answer)

theorem lookup_answers {place : Nat} (member : place ∈ schedule) :
    (c.answers schedule).lookup place = c.script[place]?.map fun i => (c.actions i).1 := by
  rw [answers, lookup_filterMap, if_pos member]

theorem Decided.answers_after (first : c.Decided i) (decided : ∀ j ∈ c.script, c.Decided j)
    (schedule : List Nat) : (c.actions i).2.answers schedule = c.answers schedule := by
  unfold answers
  rw [first.asked.script]
  refine List.filterMap_congr fun place _ => ?_
  cases atPlace : c.script[place]? with
  | none => rfl
  | some j =>
    have second := decided j (List.mem_of_getElem? atPlace)
    simp only [Option.map_some, first.actions_after second]

theorem actionsAt_eq (decided : ∀ i ∈ c.script, c.Decided i) (schedule : List Nat) :
    c.actionsAt schedule = (c.answers schedule, c.requestAll (c.requested schedule)) := by
  induction schedule generalizing c with
  | nil => rfl
  | cons place rest ih =>
    unfold actionsAt
    cases atPlace : c.script[place]? with
    | none =>
      rw [requested, answers, List.filterMap_cons_none atPlace,
        List.filterMap_cons_none (by rw [atPlace]; rfl)]
      exact ih decided
    | some i =>
      have first := decided i (List.mem_of_getElem? atPlace)
      have asked := first.asked
      have decidedAfter : ∀ j ∈ (c.actions i).2.script, (c.actions i).2.Decided j := by
        rw [asked.script]
        exact fun j member => asked.decided (decided j member)
      have sameScript : (c.actions i).2.requested rest = c.requested rest := by
        rw [requested, asked.script, requested]
      have here : c.answers (place :: rest) = (place, (c.actions i).1) :: c.answers rest :=
        List.filterMap_cons_some (by rw [atPlace]; rfl)
      dsimp only
      rw [ih decidedAfter, first.answers_after decided, sameScript, here, requested_cons atPlace]
      rfl

section Collect

variable {answers others : List (Nat × Except Failure (List Action))} {places script : List Nat}

theorem collect_congr (same : ∀ place ∈ places, answers.lookup place = others.lookup place) :
    collect answers places = collect others places := by
  induction places with
  | nil => rfl
  | cons place rest ih =>
    obtain ⟨here, later⟩ := List.forall_mem_cons.mp same
    simp only [collect, here, ih later]

theorem collect_error {outcome : Nat → Except Failure (List Action)}
    (run : collect answers places = .error failure)
    (known : ∀ place ∈ places, answers.lookup place = script[place]?.map outcome) :
    FailsFirst outcome (places.filterMap (script[·]?)) failure := by
  induction places with
  | nil => cases run
  | cons place rest ih =>
    obtain ⟨here, later⟩ := List.forall_mem_cons.mp known
    unfold collect at run
    rw [here] at run
    cases atPlace : script[place]? with
    | none =>
      simp only [atPlace, Option.map_none] at run
      rw [List.filterMap_cons_none atPlace]
      exact ih run later
    | some i =>
      simp only [atPlace, Option.map_some] at run
      rw [List.filterMap_cons_some atPlace]
      cases answer : outcome i with
      | error _ =>
        simp only [answer, Except.error.injEq] at run
        subst run
        exact .here answer _
      | ok made =>
        simp only [answer] at run
        split at run
        · rename_i fails
          cases run
          exact (ih fails later).cons answer
        · cases run

end Collect

theorem decided_requested (decided : ∀ i ∈ c.script, c.Decided i) (schedule : List Nat) :
    ∀ i ∈ c.requested schedule, c.Decided i := by
  intro i member
  obtain ⟨place, _, atPlace⟩ := List.mem_filterMap.mp member
  exact decided i (List.mem_of_getElem? atPlace)

/-- The answers are put together in source order, wherever they stand in the schedule. -/
theorem concludeBy_eq (decided : ∀ i ∈ c.script, c.Decided i) (perm : schedule.Perm c.places) :
    c.concludeBy schedule =
      (collect (c.answers c.places) c.places,
        { c.requestAll (c.requested schedule) with
          log := c.log.closePhase (collect (c.answers c.places) c.places).isOk }) := by
  have asked := requestAll_asked (decided_requested decided schedule)
  have samePlaces : (c.requestAll (c.requested schedule)).places = c.places := by
    rw [places, asked.script, places]
  have collected : collect (c.answers schedule) c.places =
      collect (c.answers c.places) c.places := by
    refine collect_congr fun place member => ?_
    rw [lookup_answers member, lookup_answers (perm.mem_iff.mpr member)]
  simp only [concludeBy, actionsAt_eq decided, samePlaces, collected, asked.log]

theorem concludeBy_perm (decided : ∀ i ∈ c.script, c.Decided i) (perm : schedule.Perm c.places) :
    (c.concludeBy schedule).1 = (c.concludeBy c.places).1 ∧
      Reordered (c.concludeBy c.places).2 (c.concludeBy schedule).2 := by
  rw [concludeBy_eq decided perm, concludeBy_eq decided (.refl _)]
  have same := requestAll_perm (perm.symm.filterMap (c.script[·]?)) (decided_requested decided _)
  exact ⟨rfl, same.withLog _⟩

theorem concludeBy_fails (decided : ∀ i ∈ c.script, c.Decided i) (perm : schedule.Perm c.places)
    (failed : (c.concludeBy schedule).1 = .error failure) :
    (∀ i ∈ c.script, (c.concludeBy schedule).2.Decided i) ∧
      FailsFirst (fun i => ((c.concludeBy schedule).2.actions i).1) c.script failure := by
  have each := decided_requested decided schedule
  have asked := requestAll_asked each
  rw [concludeBy_eq decided perm] at failed ⊢
  have fails := collect_error failed fun place member => lookup_answers member
  have whole : c.places.filterMap (c.script[·]?) = c.script := c.requested_places
  rw [whole] at fails
  have decidedAfter : ∀ i ∈ c.script, (c.requestAll (c.requested schedule)).Decided i :=
    fun i member => asked.decided (decided i member)
  refine ⟨decidedAfter, fails.congr ?_⟩
  intro i member
  refine Eq.trans ?_ (actions_requestAll each (decided i member))
  exact (decidedAfter i member).actions_congr rfl rfl rfl

/-- The first phase: it ends with a failure, or all declarations are decided. The schedule has no
part in that. -/
theorem generateBy_cases (c : Compilation) :
    (∃ failure after, (∀ schedule, c.generateBy schedule = (.error failure, after)) ∧
      FailsFirst (fun i => (after.prepare i).1) c.script failure) ∨
    ∃ start : Compilation, start.script = c.script ∧ (∀ i ∈ c.script, start.Decided i) ∧
      ∀ schedule, c.generateBy schedule = start.concludeBy schedule := by
  cases run : prepareEach { c with log := c.log.beginPhase "Preparing" } c.script with
  | mk result mid =>
    cases result with
    | error failure =>
      refine Or.inl ⟨failure, _, generateBy_unprepared run, ?_⟩
      exact (prepareEach_fails run).congr fun i _ => prepare_congr rfl rfl
    | ok =>
      have progressed :=
        prepareEach_progressed { c with log := c.log.beginPhase "Preparing" } c.script
      rw [run] at progressed
      refine Or.inr ⟨_, ?_, ?_, generateBy_prepared run⟩
      · obtain ⟨_, _, _, rfl⟩ := progressed.frame
        rfl
      · have decided : ∀ i ∈ c.script, mid.Decided i := prepareEach_decides run
        exact decided

/-- Whatever the schedule, the result is that of one request after the other in source order, and so
are the ledger, the log and all declarations; the calls are the same ones in another order. A
failure is that of the first declaration of the script that cannot be prepared or, if there is none,
that of the first that has no actions. -/
theorem generateBy_perm (c : Compilation) (perm : schedule.Perm c.places) :
    (c.generateBy schedule).1 = c.generate.1 ∧
      Reordered c.generate.2 (c.generateBy schedule).2 ∧
      ∀ failure, (c.generateBy schedule).1 = .error failure →
        FailsFirst (fun i => ((c.generateBy schedule).2.prepare i).1) c.script failure ∨
          (∀ i ∈ c.script, ∃ used, ((c.generateBy schedule).2.prepare i).1 = .ok used) ∧
            FailsFirst (fun i => ((c.generateBy schedule).2.actions i).1) c.script failure := by
  obtain ⟨failed, after, run, first⟩ | ⟨start, script, decided, run⟩ := c.generateBy_cases
  · rw [generate, run, run]
    refine ⟨rfl, .refl after, ?_⟩
    rintro failure ⟨⟩
    exact Or.inl first
  · have samePlaces : c.places = start.places := by rw [places, ← script, places]
    rw [← script] at decided ⊢
    rw [samePlaces] at perm
    rw [generate, run, run, samePlaces]
    obtain ⟨result, reordered⟩ := concludeBy_perm decided perm
    refine ⟨result, reordered, ?_⟩
    intro failure failed
    obtain ⟨decidedAfter, fails⟩ := concludeBy_fails decided perm failed
    refine Or.inr ⟨?_, fails⟩
    intro i member
    obtain ⟨used, prepared⟩ := (decidedAfter i member).prepare_eq
    exact ⟨used, congrArg Prod.fst prepared⟩

/-- The yard with encoders that fail, each with a text of its own. -/
def closedYard : Compilation :=
  { yardReady with
    backend :=
      { echo with
        groups := some fun _ _ _ => .error (.external "group")
        layouts := some fun _ _ _ => .error (.external "layout") } }

/-- The layout fails before the group does, and the failure is that of the group. -/
theorem generateBy_perm_closedYard :
    [3, 2, 1, 0].Perm closedYard.places ∧
      (closedYard.generateBy [3, 2, 1, 0]).1 = .error (.external "group") ∧
      closedYard.generate.1 = .error (.external "group") ∧
      closedYard.generate.2.calls ≠ (closedYard.generateBy [3, 2, 1, 0]).2.calls ∧
      Reordered closedYard.generate.2 (closedYard.generateBy [3, 2, 1, 0]).2 := by
  have perm : [3, 2, 1, 0].Perm closedYard.places := by decide +kernel
  obtain ⟨same, reordered, _⟩ := closedYard.generateBy_perm perm
  have failure :
      closedYard.generate.1.map (List.map Action.bytes) = .error (.external "group") := by
    decide +kernel
  rw [same]
  cases answer : closedYard.generate.1 with
  | error text =>
    rw [answer] at failure
    cases failure
    exact ⟨perm, rfl, rfl, by decide +kernel, reordered⟩
  | ok actions =>
    rw [answer] at failure
    cases failure

end Grf.Compilation
