import Grf.Proofs.Numbering
import Grf.Proofs.Schedules

namespace Grf.Compilation

variable {c mid after : Compilation} {i : Nat} {is before rest : List Nat} {n : Node} {f : Feature}
  {failure : Failure} {log : Log}

/-- Whether the declaration is a group or a layout that is used with the feature. Sets and templates
have no use for an ID. -/
def carries (c : Compilation) (f : Feature) (i : Nat) : Bool :=
  match c.block? i with
  | some (.group _) => f ∈ c.features i
  | some (.layout _) => f ∈ c.features i
  | _ => false

/-- The node of a declaration that needs an ID for the feature. -/
def carrier? (c : Compilation) (f : Feature) (i : Nat) : Option Node :=
  (c.node? i).filter fun n => n.allocates && (c.ledger.features n).contains f

theorem carrier?_eq_some : c.carrier? f i = some n ↔
    c.node? i = some n ∧ n.allocates = true ∧ f ∈ (c.ledger.features n).toList := by
  simp [carrier?, Option.filter_eq_some_iff, FeatureSet.contains]

theorem isSome_carrier? (c : Compilation) (f : Feature) (i : Nat) :
    (c.carrier? f i).isSome = c.carries f i := by
  cases found : c.block? i with
  | none => simp [carrier?, carries, node?, found]
  | some b =>
    have atI := node?_of_block? found
    cases b <;>
      simp [carrier?, carries, found, atI, features, Block.node, Block.allocates,
        FeatureSet.contains, Option.isSome_filter]

theorem carries_iff : c.carries f i = true ↔ ∃ n, c.carrier? f i = some n := by
  rw [← isSome_carrier?, Option.isSome_iff_exists]

theorem length_carriers (c : Compilation) (f : Feature) (is : List Nat) :
    (is.filterMap (c.carrier? f)).length = is.countP (c.carries f) := by
  rw [List.length_filterMap_eq_countP]
  simp only [isSome_carrier?]

/-- The features of the uses are known, and no declaration is prepared yet. -/
structure Unprepared (c : Compilation) : Prop where
  registered : c.Registered
  propagated : c.ledger.isPropagated = true
  prepared : c.ledger.prepared = []
  allocations : c.ledger.allocations = []

/-- Once the declarations `before` have their IDs, there is one left for every feature of `i`. -/
def HasRoom (c : Compilation) (before : List Nat) (i : Nat) : Prop :=
  ∀ f, c.carries f i = true → (before.countP (c.carries f) : Int) < c.ledger.capacity.toInt

/-- The first declarations of the script are prepared, in this order. -/
structure Partway (c : Compilation) (done : List Nat) (mid : Compilation) : Prop where
  nodes : ∀ i, mid.node? i = c.node? i
  features : ∀ n, mid.ledger.features n = c.ledger.features n
  capacity : mid.ledger.capacity = c.ledger.capacity
  propagated : mid.ledger.isPropagated = true
  numbered : mid.ledger.Numbered
  holders : ∀ f, mid.ledger.holders f = done.filterMap (c.carrier? f)

namespace Unprepared

theorem numbered (unprepared : c.Unprepared) : c.ledger.Numbered := by
  refine ⟨fun _ => ⟨unprepared.prepared, unprepared.allocations⟩, ?_, ?_, ?_, ?_⟩ <;>
    simp [unprepared.prepared, unprepared.allocations, Ledger.holders]

theorem partway (unprepared : c.Unprepared) (first : is <+: c.script)
    (run : prepareEach { c with log } is = (.ok (), mid)) : Partway c is mid := by
  have progressed := prepareEach_progressed { c with log } is
  rw [run] at progressed
  have distinct : (is.filterMap c.node?).Nodup :=
    unprepared.registered.distinct.sublist (first.sublist.filterMap _)
  have new : ∀ n ∈ is.filterMap c.node?, c.ledger.prepared.lookup n = none := by
    simp [unprepared.prepared]
  have numbered := unprepared.numbered.changes progressed.changes
  obtain ⟨allocations, rfl⟩ := prepareEach_ok run unprepared.propagated distinct new
  refine ⟨fun _ => rfl, fun _ => rfl, rfl, unprepared.propagated, numbered, ?_⟩
  intro f
  have names : ((is.filterMap c.node?).map fun n => (n, c.ledger.isUsed n)).map (·.1) =
      is.filterMap c.node? := by
    rw [List.map_map]
    exact List.map_id _
  show ((c.ledger.prepared ++ (is.filterMap c.node?).map fun n => (n, c.ledger.isUsed n)).map
    (·.1)).filter (fun n => n.allocates && (c.ledger.features n).contains f) = _
  rw [unprepared.prepared, List.nil_append, names, List.filter_filterMap]
  rfl

end Unprepared

namespace Partway

theorem length_holders (partway : Partway c is mid) (f : Feature) :
    (mid.ledger.holders f).length = is.countP (c.carries f) := by
  rw [partway.holders, length_carriers]

theorem isExhausted (partway : Partway c is mid) :
    mid.ledger.isExhausted f = true ↔
      c.ledger.capacity.toInt ≤ (is.countP (c.carries f) : Int) := by
  rw [Ledger.isExhausted, partway.numbered.nextId_eq, partway.length_holders, partway.capacity,
    decide_eq_true_iff]

/-- The ID of a declaration is the number of those before it that need one. -/
theorem holder_at (partway : Partway c (before ++ i :: rest) mid)
    (carrier : c.carrier? f i = some n) :
    (mid.ledger.holders f)[before.countP (c.carries f)]? = some n := by
  rw [partway.holders, List.filterMap_append, List.filterMap_cons_some carrier, ← length_carriers,
    List.getElem?_append_right (Nat.le_refl _), Nat.sub_self, List.getElem?_cons_zero]

theorem hasRoom (partway : Partway c (before ++ i :: rest) mid) : c.HasRoom before i := by
  intro f carries
  obtain ⟨n, carrier⟩ := carries_iff.mp carries
  have given := partway.numbered.mem_allocations.mpr (partway.holder_at carrier)
  rw [← partway.capacity]
  exact partway.numbered.within _ given

theorem actionId?_eq_some (partway : Partway c (before ++ i :: rest) mid)
    (carries : c.carries f i = true) :
    mid.actionId? i f = some (before.countP (c.carries f)) := by
  obtain ⟨n, carrier⟩ := carries_iff.mp carries
  have atI := (partway.nodes i).trans (carrier?_eq_some.mp carrier).1
  simp only [actionId?, atI]
  exact partway.numbered.id?_eq_some.mpr (partway.holder_at carrier)

theorem actionId?_eq_none (partway : Partway c is mid) (other : c.carries f i = false) :
    mid.actionId? i f = none := by
  cases atI : mid.node? i with
  | none => simp only [actionId?, atI]
  | some n =>
    simp only [actionId?, atI]
    refine Option.eq_none_iff_forall_ne_some.mpr fun id given => ?_
    have holds := partway.numbered.exists_id?_iff.mp ⟨id, given⟩
    obtain ⟨_, allocates, carried⟩ := partway.numbered.mem_holders.mp holds
    rw [partway.features] at carried
    rw [partway.nodes] at atI
    have carries := carries_iff.mpr ⟨n, carrier?_eq_some.mpr ⟨atI, allocates, carried⟩⟩
    rw [other] at carries
    cases carries

end Partway

/-- The declaration is the first one of the script for which an ID is missing, namely for `f`. -/
structure Overflows (c : Compilation) (before : List Nat) (i : Nat) (f : Feature) : Prop where
  carries : c.carries f i = true
  full : c.ledger.capacity.toInt ≤ (before.countP (c.carries f) : Int)
  first : ∀ earlier j later, before = earlier ++ j :: later → c.HasRoom earlier j

namespace Unprepared

/-- Where the preparation of the script stops. -/
theorem overflows (unprepared : c.Unprepared)
    (run : prepareEach { c with log } c.script = (.error failure, after)) :
    ∃ before i rest b f, c.script = before ++ i :: rest ∧ c.block? i = some b ∧
      c.Overflows before i f ∧
      failure = .inScript (.idsExhausted b.kind b.name.name f) b.name.position := by
  obtain ⟨before, i, rest, script, prepared, failed⟩ := prepareEach_error run
  have partway := unprepared.partway ⟨i :: rest, script.symm⟩ prepared
  have room : ∀ earlier j later, before = earlier ++ j :: later → c.HasRoom earlier j := by
    rintro earlier j later rfl
    exact partway.hasRoom
  cases atI : after.node? i with
  | none =>
    rw [prepare_none atI] at failed
    cases failed
  | some n =>
    rw [prepare_some atI] at failed
    obtain ⟨_, early | ⟨_, allocates, f, carried, exhausted, isFailure⟩⟩ :=
      Ledger.prepare_error (congrArg Prod.fst failed)
    · cases early.1.symm.trans partway.propagated
    · rw [partway.nodes] at atI
      rw [partway.features] at carried
      obtain ⟨b, found, rfl⟩ := node?_eq_some.mp atI
      have carrier := carrier?_eq_some.mpr ⟨atI, allocates, carried⟩
      exact ⟨before, i, rest, b, f, script, found,
        ⟨carries_iff.mpr ⟨_, carrier⟩, partway.isExhausted.mp exhausted, room⟩, isFailure⟩

/-- For each feature that needs IDs at all, there are enough of them. -/
theorem prepareEach_ok_iff (unprepared : c.Unprepared) (log : Log) :
    (prepareEach { c with log } c.script).1 = .ok () ↔
      ∀ f, (∃ i ∈ c.script, c.carries f i = true) →
        (c.script.countP (c.carries f) : Int) ≤ c.ledger.capacity.toInt := by
  constructor
  · intro passed f carried
    obtain ⟨after, run⟩ : ∃ after, prepareEach { c with log } c.script = (.ok (), after) :=
      ⟨_, Prod.ext passed rfl⟩
    have partway := unprepared.partway List.prefix_rfl run
    have positive : 0 < c.script.countP (c.carries f) := List.countP_pos_iff.mpr carried
    -- The last ID that is given out is below the capacity.
    obtain ⟨n, last⟩ : ∃ n,
        (after.ledger.holders f)[c.script.countP (c.carries f) - 1]? = some n := by
      refine ⟨_, List.getElem?_eq_getElem ?_⟩
      rw [partway.length_holders]
      omega
    have below := partway.numbered.within _ (partway.numbered.mem_allocations.mpr last)
    rw [partway.capacity] at below
    dsimp only at below
    omega
  · intro enough
    cases result : (prepareEach { c with log } c.script).1 with
    | ok => rfl
    | error failure =>
      obtain ⟨before, i, rest, b, f, script, _, overflows, _⟩ :=
        unprepared.overflows (Prod.ext result rfl)
      have most := enough f ⟨i, by simp [script], overflows.carries⟩
      have full := overflows.full
      rw [script, List.countP_append, List.countP_cons_of_pos overflows.carries] at most
      omega

end Unprepared

theorem Recorded.unprepared (recorded : Recorded c after) (registered : c.Registered)
    (propagated : after.ledger.isPropagated = true) (prepared : c.ledger.prepared = [])
    (allocations : c.ledger.allocations = []) : after.Unprepared := by
  have registeredAfter := recorded.registered registered
  obtain ⟨_, _, _, rfl⟩ := recorded
  exact ⟨registeredAfter, propagated, prepared, allocations⟩

/-- The first phase of making the output. -/
def preparation (c : Compilation) : Except Failure Unit × Compilation :=
  prepareEach { c with log := c.log.beginPhase "Preparing" } c.script

/-- The IDs of the declarations that were added: each one that needs an ID for a feature has the
number of those before it, and no other has any. -/
structure Assigned (c : Compilation) (added : List Nat) (after : Compilation) : Prop where
  counted : ∀ before i rest f, added = before ++ i :: rest → c.carries f i = true →
    after.actionId? i f = some (before.countP (c.carries f))
  others : ∀ i f, c.carries f i = false → after.actionId? i f = none

theorem Assigned.congr (assigned : Assigned c is mid)
    (same : ∀ i f, after.actionId? i f = mid.actionId? i f) : Assigned c is after where
  counted before i rest f script carries :=
    (same i f).trans (assigned.counted before i rest f script carries)
  others i f other := (same i f).trans (assigned.others i f other)

theorem Partway.assigned (partway : Partway c is mid) : Assigned c is mid where
  counted := by
    rintro before i rest f rfl carries
    exact partway.actionId?_eq_some carries
  others _ _ other := partway.actionId?_eq_none other

theorem actionId?_congr (ledger : after.ledger = c.ledger) (node : after.node? i = c.node? i)
    (f : Feature) : after.actionId? i f = c.actionId? i f := by
  unfold actionId?
  rw [ledger, node]

theorem preparation_progressed (c : Compilation) :
    Progressed { c with log := c.log.beginPhase "Preparing" } c.preparation.2 :=
  prepareEach_progressed _ _

/-- The second phase gives out no ID. -/
theorem actionId?_generateBy (run : c.preparation = (.ok (), mid)) (schedule : List Nat) (i : Nat)
    (f : Feature) : (c.generateBy schedule).2.actionId? i f = mid.actionId? i f := by
  have progressed := c.preparation_progressed
  rw [run] at progressed
  have script : mid.script = c.script := by
    obtain ⟨_, _, _, rfl⟩ := progressed.frame
    rfl
  have decided := prepareEach_decides run
  rw [← script] at decided
  let start : Compilation := { mid with log := (mid.log.closePhase true).beginPhase "Generating" }
  have asked := requestAll_asked (decided_requested (c := start) decided schedule)
  rw [generateBy_prepared run, concludeBy, actionsAt_eq (c := start) decided]
  exact actionId?_congr asked.ledger (asked.nodes i) f

section Ready

variable {profile : Profile} {screen : Screen} {constants : List (String × Expr)}
  {backend : Backend} {added : List Nat} {uses : List (Identifier × Feature)}

theorem Ready.unprepared (ready : Ready profile screen constants backend added uses c) :
    c.Unprepared ∧ c.ledger.capacity = profile.maxIds := by
  obtain ⟨assembled, validate, link, entered, propagate⟩ := ready
  have fresh := assembled.fresh
  have revised := (validateEach_revised validate).1
  have untouched := revised.ledger.trans fresh.ledger
  have registered := fresh.registered.congr revised.script (by rw [revised.ledger]) revised.nodes
  obtain ⟨recordedLast, propagated⟩ := propagate_recorded propagate
  have recorded := ((link_recorded link).trans entered.recorded).trans recordedLast
  refine ⟨recorded.unprepared registered propagated (by rw [untouched]) (by rw [untouched]), ?_⟩
  obtain ⟨_, _, _, rfl⟩ := recorded
  simp only [untouched]

/-- The first phase succeeds if and only if, for each feature that a group or layout is used with,
there are IDs for all of these. Then the IDs count, for each feature, what was added before. If the
phase fails, it does so at the first declaration for which an ID is missing, and nothing of the
backend is called, whatever the schedule. -/
theorem preparation_exact (ready : Ready profile screen constants backend added uses c)
    (schedule : List Nat) :
    (c.preparation.1 = .ok () ↔
        ∀ f, (∃ i ∈ added, c.carries f i = true) →
          (added.countP (c.carries f) : Int) ≤ profile.maxIds.toInt) ∧
      (c.preparation.1 = .ok () →
        Assigned c added c.preparation.2 ∧ Assigned c added (c.generateBy schedule).2) ∧
      ∀ failure, c.preparation.1 = .error failure →
        (c.generateBy schedule).1 = .error failure ∧ (c.generateBy schedule).2.calls = [] ∧
          ∃ before i rest b f error, added = before ++ i :: rest ∧ c.block? i = some b ∧
            c.Overflows before i f ∧ failure = .script error ∧ error.kind = .capacity ∧
            error.cause = .idsExhausted b.kind b.name.name f ∧
            error.position = b.name.position := by
  obtain ⟨unprepared, capacity⟩ := ready.unprepared
  have awaiting := ready.awaiting
  have script := awaiting.script
  refine ⟨?_, ?_, ?_⟩
  · rw [← script, ← capacity]
    exact unprepared.prepareEach_ok_iff _
  · intro passed
    have run : c.preparation = (.ok (), c.preparation.2) := Prod.ext passed rfl
    have partway := unprepared.partway List.prefix_rfl run
    have assigned : Assigned c added c.preparation.2 := by
      rw [← script]
      exact partway.assigned
    exact ⟨assigned, assigned.congr (actionId?_generateBy run schedule)⟩
  · intro failure failed
    have run : c.preparation = (.error failure, c.preparation.2) := Prod.ext failed rfl
    obtain ⟨before, i, rest, b, f, split, found, overflows, rfl⟩ := unprepared.overflows run
    have calls : c.preparation.2.calls = c.calls := by
      obtain ⟨_, _, _, same⟩ := c.preparation_progressed.frame
      rw [same]
    rw [generateBy_unprepared run]
    exact ⟨rfl, calls.trans awaiting.calls, before, i, rest, b, f, _, script.symm.trans split,
      found, overflows, rfl, rfl, rfl, rfl⟩

end Ready

/-- Two groups for one feature, with a set before them. -/
def terrace : Compilation :=
  let walls : SpriteSet := ⟨⟨"walls", none⟩, none, [.real [] [] none], none, {}, -1, {}⟩
  let group (name : String) : SpriteGroup :=
    ⟨⟨name, none⟩, [⟨⟨"default", none⟩, [.ident ⟨"walls", none⟩], none⟩], none, {}⟩
  [.set walls, .group (group "house"), .group (group "barn")].foldl declare
    (.new { maxIds := 1 } { width := 80 } [] echo)

def terraceUses : List (Identifier × Feature) :=
  [(⟨"barn", none⟩, ⟨7⟩), (⟨"house", none⟩, ⟨7⟩)]

def terraceReady : Compilation :=
  (terraceUses.foldl (fun c use => (c.use use.1 use.2).2) terrace.validate.2.link.2).propagate.2

/-- The only ID goes to the group that was added first, not to the one that was used first. -/
theorem preparation_exact_terrace :
    Ready { maxIds := 1 } { width := 80 } [] echo [0, 1, 2] terraceUses terraceReady ∧
      terraceReady.preparation.1 =
        .error (.inScript (.idsExhausted "spritegroup" "barn" ⟨7⟩) none) ∧
      (terraceReady.generateBy [2, 1, 0]).2.calls = [] ∧
      ¬ ∀ f, (∃ i ∈ [0, 1, 2], terraceReady.carries f i = true) →
        (([0, 1, 2].countP (terraceReady.carries f) : Nat) : Int) ≤ (1 : Int64).toInt := by
  have assembled : Assembled { maxIds := 1 } { width := 80 } [] echo [0, 1, 2] terrace :=
    .declare (.declare (.declare .new (by exact ⟨rfl, rfl⟩) (by decide +kernel) rfl)
      (by exact ⟨rfl, rfl⟩) (by decide +kernel) rfl) (by exact ⟨rfl, rfl⟩) (by decide +kernel)
      (by decide +kernel)
  have ready : Ready { maxIds := 1 } { width := 80 } [] echo [0, 1, 2] terraceUses terraceReady :=
    ⟨assembled, Prod.ext (by decide +kernel) rfl, Prod.ext (by decide +kernel) rfl,
      .cons (Prod.ext (by decide +kernel) rfl) (.cons (Prod.ext (by decide +kernel) rfl) .nil),
      Prod.ext (by decide +kernel) rfl⟩
  have failed : terraceReady.preparation.1 =
      .error (.inScript (.idsExhausted "spritegroup" "barn" ⟨7⟩) none) := by
    decide +kernel
  obtain ⟨enough, _, stops⟩ := preparation_exact ready [2, 1, 0]
  refine ⟨ready, failed, (stops _ failed).2.1, ?_⟩
  rw [← enough, failed]
  simp

end Grf.Compilation
