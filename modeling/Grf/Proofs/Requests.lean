import Grf.Proofs.Encoding
import Grf.Proofs.Preparation

namespace Grf

theorem Block.node_withLifecycle (b : Block) (e : Lifecycle) (i : Nat) :
    (b.withLifecycle e).node i = b.node i := by
  cases b <;> rfl

namespace Compilation

variable {c mid after : Compilation} {i j : Nat} {b : Block}

/-- The answer to the first request for the actions of a declaration, and the calls that it takes,
if the declaration is prepared and validated. -/
def outcomeOf (c : Compilation) (i : Nat) : Except Failure (List Action) × List Call :=
  match c.block? i with
  | none => (.ok [], [])
  | some b =>
    if c.ledger.isUsed (b.node i) then
      ((c.encode i (b.node i) b).1, (c.encode i (b.node i) b).2.1)
    else (.ok [], [])

/-- The declaration is prepared and validated, and was not asked for actions before. -/
def Requestable (c : Compilation) (i : Nat) : Prop :=
  ∀ b, c.block? i = some b → b.lifecycle.stage ≠ .unvalidated ∧ b.lifecycle.outcome = none ∧
    c.ledger.prepared.lookup (b.node i) = some (c.ledger.isUsed (b.node i))

/-- The declarations `is` were asked for actions, in that order. Nothing else happened. -/
structure Answered (c : Compilation) (is : List Nat) (after : Compilation) : Prop where
  ledger : after.ledger = c.ledger
  log : after.log = c.log
  script : after.script = c.script
  backend : after.backend = c.backend
  calls : after.calls = c.calls ++ is.flatMap fun i => (c.outcomeOf i).2
  nodes : ∀ j, after.node? j = c.node? j
  others : ∀ j, j ∉ is ∨ c.node? j = none → after.block? j = c.block? j

theorem features_eq (found : c.block? i = some b) :
    c.features i = (c.ledger.features (b.node i)).toList := by
  simp only [features, node?_of_block? found]

theorem features_ascending (c : Compilation) (i : Nat) :
    (c.features i).Pairwise (·.code < ·.code) := by
  unfold features
  split
  · exact .nil
  · exact (c.ledger.features _).ascending

theorem isUsed_eq (found : c.block? i = some b) :
    c.ledger.isUsed (b.node i) = !(c.features i).isEmpty := by
  rw [features_eq found, Ledger.isUsed]

theorem outcomeOf_makes {actions : List Action}
    (passed : (c.outcomeOf i).1 = .ok actions) :
    ∃ output : Feature → List Action,
      (∀ b, c.block? i = some b → ∀ f ∈ c.features i,
        c.backend.Makes f (c.actionId? i f) b (output f)) ∧
      actions = (c.features i).flatMap output := by
  by_cases none : c.features i = []
  · refine ⟨fun _ => [], by simp [none], ?_⟩
    cases found : c.block? i with
    | none => simpa [outcomeOf, found, none] using passed.symm
    | some b => simpa [outcomeOf, found, isUsed_eq found, none] using passed.symm
  cases found : c.block? i with
  | none => simp [features, node?, found] at none
  | some b =>
    have encoded : (c.encode i (b.node i) b).1 = .ok actions := by
      simpa [outcomeOf, found, isUsed_eq found, none] using passed
    suffices ∃ output : Feature → List Action,
        (∀ f ∈ c.features i, c.backend.Makes f (c.actionId? i f) b (output f)) ∧
          actions = (c.features i).flatMap output by simpa using this
    simp only [features_eq found, actionId?, node?_of_block? found]
    exact encode_makes encoded

theorem deliveries_outcomeOf (c : Compilation) (i : Nat) :
    (c.outcomeOf i).2.filter Call.isDelivery =
      (if c.backend.sets.isSome ∧ c.features i ≠ [] then c.delivery? i else none).toList := by
  cases found : c.block? i with
  | none => simp [outcomeOf, delivery?, found]
  | some b =>
    simp only [outcomeOf, found, isUsed_eq found]
    by_cases none : c.features i = []
    · simp [none]
    · simpa [none] using deliveries_encode found

theorem deliveries_eq (c : Compilation) (is : List Nat) :
    (is.flatMap fun i => (c.outcomeOf i).2).filter Call.isDelivery =
      if c.backend.sets.isSome then (is.filter (c.features · ≠ [])).filterMap c.delivery?
      else [] := by
  simp only [List.filter_flatMap, deliveries_outcomeOf, ← List.filterMap_eq_flatMap_toList]
  split
  · rename_i sink
    simp [sink, List.filterMap_filter]
  · rename_i noSink
    simp [noSink]

theorem outcomeOf_congr (ledger : after.ledger = c.ledger) (backend : after.backend = c.backend)
    (block : after.block? i = c.block? i) : after.outcomeOf i = c.outcomeOf i := by
  simp only [outcomeOf, block, ledger, encode_congr ledger backend]

namespace Answered

theorem refl (c : Compilation) : Answered c [] c :=
  ⟨rfl, rfl, rfl, rfl, by simp only [List.flatMap_nil, List.append_nil], fun _ => rfl,
    fun _ _ => rfl⟩

theorem outcomeOf_eq {is : List Nat} (answered : Answered c is after)
    (apart : j ∉ is ∨ c.node? j = none) : after.outcomeOf j = c.outcomeOf j :=
  outcomeOf_congr answered.ledger answered.backend (answered.others j apart)

theorem requestable {is : List Nat} (answered : Answered c is after)
    (apart : j ∉ is ∨ c.node? j = none) (requestable : c.Requestable j) : after.Requestable j := by
  intro b found
  rw [answered.others j apart] at found
  rw [answered.ledger]
  exact requestable b found

theorem trans {is js : List Nat} (first : Answered c is mid) (second : Answered mid js after)
    (apart : ∀ j ∈ js, j ∉ is ∨ c.node? j = none) : Answered c (is ++ js) after where
  ledger := second.ledger.trans first.ledger
  log := second.log.trans first.log
  script := second.script.trans first.script
  backend := second.backend.trans first.backend
  calls := by
    have same : js.flatMap (fun j => (mid.outcomeOf j).2) = js.flatMap fun j => (c.outcomeOf j).2 :=
      List.flatMap_congr fun j member => by rw [first.outcomeOf_eq (apart j member)]
    rw [second.calls, first.calls, same, List.flatMap_append, List.append_assoc]
  nodes j := (second.nodes j).trans (first.nodes j)
  others := by
    intro j untouched
    simp only [List.mem_append, not_or] at untouched
    rw [second.others j (untouched.imp And.right ((first.nodes j).trans ·)),
      first.others j (untouched.imp And.left id)]

/-- A block is replaced after its request. -/
theorem update (found : c.block? i = some b) {b' : Block} (node : b'.node i = b.node i) :
    Answered c [i] ({ c with calls := c.calls ++ (c.outcomeOf i).2 }.update i (.block b')) where
  ledger := rfl
  log := rfl
  script := rfl
  backend := rfl
  calls := by rw [List.flatMap_singleton]; rfl
  nodes := node?_update found node
  others := by
    intro j untouched
    have different : j ≠ i := by
      rintro rfl
      rw [node?_of_block? found] at untouched
      simp at untouched
    exact (block?_update found b' j).trans (if_neg different)

end Answered

/-- The first request for the actions of a declaration. -/
theorem actions_first (propagated : c.ledger.isPropagated = true)
    (requestable : c.Requestable i) :
    ∃ after, c.actions i = ((c.outcomeOf i).1, after) ∧ Answered c [i] after := by
  unfold actions
  cases found : c.block? i with
  | none =>
    refine ⟨c, by simp only [outcomeOf, found], ?_⟩
    have calls : c.calls = c.calls ++ [i].flatMap fun i => (c.outcomeOf i).2 := by
      simp only [List.flatMap_singleton, outcomeOf, found, List.append_nil]
    exact ⟨rfl, rfl, rfl, rfl, calls, fun _ => rfl, fun _ _ => rfl⟩
  | some b =>
    obtain ⟨validated, unrequested, known⟩ := requestable b found
    have memo := Ledger.prepare_again propagated known
    simp only [blockActions, validated, if_false, unrequested, prepareNode_eq, memo,
      Option.toList_none, List.foldl_nil]
    cases used : c.ledger.isUsed (b.node i) with
    | false =>
      have noCalls : c.outcomeOf i = (.ok [], []) := by
        simp only [outcomeOf, found, used, Bool.false_eq_true, if_false]
      rw [noCalls]
      have answered := Answered.update found (b.node_withLifecycle .skip i)
      rw [noCalls, List.append_nil] at answered
      exact ⟨_, rfl, answered⟩
    | true =>
      have made : c.outcomeOf i =
          ((c.encode i (b.node i) b).1, (c.encode i (b.node i) b).2.1) := by
        simp only [outcomeOf, found, used, if_true]
      have answered (e : Lifecycle) := Answered.update found
        (((c.encode i (b.node i) b).2.2.node_withLifecycle e i).trans (c.encode_node i _ b))
      simp only [made] at answered ⊢
      exact ⟨_, rfl, answered _⟩

/-- The declarations at the given places of the script. -/
def requested (c : Compilation) (schedule : List Nat) : List Nat :=
  schedule.filterMap fun place => c.script[place]?

theorem requested_cons {place : Nat} {rest : List Nat} (atPlace : c.script[place]? = some i) :
    c.requested (place :: rest) = i :: c.requested rest :=
  List.filterMap_cons_some atPlace

theorem requested_places (c : Compilation) : c.requested c.places = c.script := by
  unfold requested places
  induction c.script with
  | nil => rfl
  | cons i rest ih =>
    simp only [List.length_cons, List.range_succ_eq_map, List.filterMap_cons,
      List.getElem?_cons_zero, List.filterMap_map]
    exact congrArg (i :: ·) ih

/-- A number that comes again is that of a template. -/
theorem apart_of_nodup {is : List Nat} (distinct : ((i :: is).filterMap c.node?).Nodup) :
    ∀ j ∈ is, j ∉ [i] ∨ c.node? j = none := by
  intro j member
  rw [List.mem_singleton]
  cases atJ : c.node? j with
  | none => exact Or.inr rfl
  | some n =>
    refine Or.inl ?_
    rintro rfl
    rw [List.filterMap_cons_some atJ, List.nodup_cons] at distinct
    exact distinct.1 (List.mem_filterMap.mpr ⟨j, member, atJ⟩)

/-- First requests in any order. No answer depends on the requests before it. -/
theorem actionsAt_first {schedule : List Nat} (propagated : c.ledger.isPropagated = true)
    (requestable : ∀ i ∈ c.requested schedule, c.Requestable i)
    (distinct : ((c.requested schedule).filterMap c.node?).Nodup) :
    ∃ after, c.actionsAt schedule =
        (schedule.filterMap fun place => c.script[place]?.map fun i => (place, (c.outcomeOf i).1),
          after) ∧
      Answered c (c.requested schedule) after := by
  induction schedule generalizing c with
  | nil => exact ⟨c, rfl, .refl c⟩
  | cons place rest ih =>
    unfold actionsAt
    cases atPlace : c.script[place]? with
    | none =>
      simp only [requested, List.filterMap_cons, atPlace] at requestable distinct ⊢
      exact ih propagated requestable distinct
    | some i =>
      rw [requested_cons atPlace] at requestable distinct
      obtain ⟨here, later⟩ := List.forall_mem_cons.mp requestable
      have apart := apart_of_nodup distinct
      obtain ⟨mid, first, answered⟩ := actions_first propagated here
      have sameScript : mid.requested rest = c.requested rest := by
        simp only [requested, answered.script]
      have laterMid : ∀ j ∈ mid.requested rest, mid.Requestable j := by
        intro j member
        rw [sameScript] at member
        exact answered.requestable (apart j member) (later j member)
      have distinctMid : ((mid.requested rest).filterMap mid.node?).Nodup := by
        rw [sameScript, funext answered.nodes]
        exact List.Sublist.nodup ((List.sublist_cons_self i _).filterMap _) distinct
      obtain ⟨after, run, answeredRest⟩ :=
        ih (by rw [answered.ledger]; exact propagated) laterMid distinctMid
      rw [sameScript] at answeredRest
      refine ⟨after, ?_, by rw [requested_cons atPlace]; exact answered.trans answeredRest apart⟩
      simp only [first, run, answered.script, List.filterMap_cons, atPlace, Option.map_some]
      refine congrArg (fun answers => ((place, _) :: answers, after)) (List.filterMap_congr ?_)
      intro p member
      cases atP : c.script[p]? with
      | none => rfl
      | some j =>
        have asked : j ∈ c.requested rest := List.mem_filterMap.mpr ⟨p, member, atP⟩
        simp only [Option.map_some, answered.outcomeOf_eq (apart j asked)]

end Compilation

end Grf
