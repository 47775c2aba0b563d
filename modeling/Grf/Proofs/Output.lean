import Grf.Proofs.Phases
import Grf.Proofs.Requests
import Mathlib.Tactic.Choose

namespace Grf

namespace Log

theorem warnings_foldl_warn {log : Log} (keeps : log.promotes = false) (raised : List Warning) :
    (raised.foldl warn log).warnings = log.warnings ++ raised.map Notice.ofWarning := by
  induction raised generalizing log with
  | nil => simp
  | cons w rest ih =>
    have kept : log.warn w = { log with warnings := log.warnings ++ [.ofWarning w] } := by
      simp [warn, record, keeps, Notice.ofWarning]
    rw [List.foldl_cons, kept, ih (by exact keeps), List.map_cons, List.append_assoc,
      List.singleton_append]

theorem warnings_closePhase (log : Log) (succeeded : Bool) :
    (log.closePhase succeeded).warnings = log.warnings := by
  unfold closePhase endPhase
  split <;> rfl

end Log

namespace Compilation

variable {profile : Profile} {screen : Screen} {constants : List (String × Expr)}
  {backend : Backend} {added : List Nat} {uses : List (Identifier × Feature)}
  {c start after : Compilation}
  {i : Nat} {b : Block} {actions : List Action}

theorem collect_ok {script : List Nat} {answers : List (Nat × Except Failure (List Action))}
    {outcome : Nat → Except Failure (List Action)} {places : List Nat}
    (run : collect answers places = .ok actions)
    (known : ∀ place ∈ places, answers.lookup place = script[place]?.map outcome) :
    actions = (places.filterMap (script[·]?)).flatMap (fun i => actionsIn (outcome i)) ∧
      ∀ i ∈ places.filterMap (script[·]?), outcome i = .ok (actionsIn (outcome i)) := by
  induction places generalizing actions with
  | nil =>
    cases run
    exact ⟨rfl, by simp⟩
  | cons place rest ih =>
    obtain ⟨here, later⟩ := List.forall_mem_cons.mp known
    unfold collect at run
    rw [here] at run
    cases atPlace : script[place]? with
    | none =>
      simp only [atPlace, Option.map_none] at run
      rw [List.filterMap_cons_none atPlace]
      exact ih run later
    | some i =>
      simp only [atPlace, Option.map_some] at run
      rw [List.filterMap_cons_some atPlace]
      cases answer : outcome i with
      | error failure => simp only [answer, reduceCtorEq] at run
      | ok made =>
        simp only [answer] at run
        split at run
        · cases run
        · rename_i more second
          cases run
          obtain ⟨rfl, answered⟩ := ih second later
          refine ⟨by rw [List.flatMap_cons, answer, actionsIn], ?_⟩
          exact List.forall_mem_cons.mpr ⟨by rw [answer, actionsIn], answered⟩

/-- The phases of a run without failure. -/
theorem generateBy_ok {schedule : List Nat} (run : c.generateBy schedule = (.ok actions, after)) :
    ∃ prepared answers requested,
      prepareEach { c with log := c.log.beginPhase "Preparing" } c.script = (.ok (), prepared) ∧
      actionsAt { prepared with log := (prepared.log.closePhase true).beginPhase "Generating" }
        schedule = (answers, requested) ∧
      collect answers requested.places = .ok actions ∧
      after = { requested with log := requested.log.closePhase true } := by
  unfold generateBy at run
  dsimp only at run
  split at run
  · cases run
  · rename_i prepared first
    split at run
    · cases run
    · rename_i collected
      cases run
      exact ⟨prepared, _, _, first, rfl, collected, rfl⟩

/-- The warning that nothing refers to a block. -/
def unreferenced? (c : Compilation) (i : Nat) : Option Warning :=
  (c.node? i).map fun n => .unreferenced n.kind n.name.name n.name.position

/-- The warnings about the blocks of the script that are reached with no feature. -/
def unused (c : Compilation) (profile : Profile) (reached : Nat → List Feature) : List Warning :=
  if profile.warnUnused then (c.script.filter (reached · = [])).filterMap c.unreferenced? else []

theorem unused_eq (same : c.ledger.warnUnused = profile.warnUnused) :
    c.unused profile c.features =
      (c.script.filterMap c.node?).filterMap c.ledger.unusedWarning? := by
  rw [List.filterMap_filterMap, unused, ← same]
  split
  · rename_i warns
    rw [List.filterMap_filter]
    refine List.filterMap_congr fun i _ => ?_
    cases found : c.block? i with
    | none => simp [unreferenced?, node?, found]
    | some b =>
      simp only [node?_of_block? found, unreferenced?, Option.bind_some, Ledger.unusedWarning?,
        isUsed_eq found, warns, Option.map_some]
      by_cases none : c.features i = [] <;> simp [none]
  · rename_i silent
    symm
    refine List.filterMap_eq_nil_iff.mpr fun i _ => ?_
    cases c.node? i <;> simp [Ledger.unusedWarning?, silent]

/-- `start` is `c` with every declaration of the script prepared, whatever was logged. -/
structure Prepared (c start : Compilation) : Prop where
  script : start.script = c.script
  backend : start.backend = c.backend
  calls : start.calls = c.calls
  blocks : ∀ i, start.block? i = c.block? i
  carried : start.ledger.carried = c.ledger.carried
  memo : ∀ i ∈ c.script, ∀ n, c.node? i = some n →
    start.ledger.prepared.lookup n = some (c.ledger.isUsed n)

namespace Prepared

theorem nodes (prepared : Prepared c start) (i : Nat) : start.node? i = c.node? i := by
  unfold node?
  rw [prepared.blocks]

theorem ledger_features (prepared : Prepared c start) (n : Node) :
    start.ledger.features n = c.ledger.features n := by
  unfold Ledger.features
  rw [prepared.carried]

theorem features (prepared : Prepared c start) (i : Nat) : start.features i = c.features i := by
  unfold Compilation.features
  simp only [prepared.nodes, prepared.ledger_features]

theorem requestable (prepared : Prepared c start) (awaiting : Awaiting profile backend added uses c)
    (member : i ∈ c.script) : start.Requestable i := by
  intro b found
  rw [prepared.blocks] at found
  refine ⟨awaiting.validated i member b found, awaiting.unrequested i b found, ?_⟩
  rw [prepared.memo i member _ (node?_of_block? found)]
  simp only [Ledger.isUsed, prepared.ledger_features]

theorem actionsAt_places (prepared : Prepared c start)
    (awaiting : Awaiting profile backend added uses c) :
    ∃ after, start.actionsAt c.places =
        (c.places.filterMap fun place =>
          (c.script[place]?.map fun i => (start.outcomeOf i).1).map fun answer => (place, answer),
          after) ∧
      Answered start c.script after := by
  have whole : start.requested c.places = c.script := by
    rw [← requested_places c]
    simp only [requested, prepared.script]
  have propagated : start.ledger.isPropagated = true := by
    rw [Ledger.isPropagated, prepared.carried]
    exact awaiting.propagated
  have distinct : ((start.requested c.places).filterMap start.node?).Nodup := by
    rw [whole, funext prepared.nodes]
    exact awaiting.registered.distinct
  obtain ⟨after, run, answered⟩ := actionsAt_first propagated
    (fun i member => prepared.requestable awaiting (whole ▸ member)) distinct
  refine ⟨after, ?_, whole ▸ answered⟩
  simp only [run, prepared.script, Option.map_map]
  rfl

end Prepared

theorem Awaiting.prepareEach_ok (awaiting : Awaiting profile backend added uses c) {log : Log}
    (run : prepareEach { c with log } c.script = (.ok (), start)) :
    Prepared c start ∧ start.log = (c.unused profile c.features).foldl Log.warn log := by
  have new : ∀ n ∈ c.script.filterMap c.node?, c.ledger.prepared.lookup n = none := by
    intro n _
    rw [awaiting.unprepared]
    rfl
  obtain ⟨allocations, rfl⟩ :=
    Compilation.prepareEach_ok run awaiting.propagated awaiting.registered.distinct new
  rw [unused_eq awaiting.warnUnused]
  refine ⟨⟨rfl, rfl, rfl, fun _ => rfl, rfl, ?_⟩, rfl⟩
  intro i member n atI
  show (c.ledger.prepared ++ (c.script.filterMap c.node?).map fun n =>
    (n, c.ledger.isUsed n)).lookup n = _
  rw [awaiting.unprepared, List.nil_append]
  exact lookup_map (List.mem_filterMap.mpr ⟨i, member, atI⟩)

/-- A run without failure: all declarations are prepared, then all of them answer. -/
theorem Awaiting.generate_ok (awaiting : Awaiting profile backend added uses c)
    (run : c.generate = (.ok actions, after)) :
    ∃ start requested, Prepared c start ∧ Answered start c.script requested ∧
      actions = c.script.flatMap (fun i => actionsIn (start.outcomeOf i).1) ∧
      (∀ i ∈ c.script, (start.outcomeOf i).1 = .ok (actionsIn (start.outcomeOf i).1)) ∧
      after = { requested with log := requested.log.closePhase true } ∧
      start.log = (((c.unused profile c.features).foldl Log.warn
        (c.log.beginPhase "Preparing")).closePhase true).beginPhase "Generating" := by
  obtain ⟨prepared, answers, requested, prepare, request, collected, rfl⟩ := generateBy_ok run
  obtain ⟨before, log⟩ := awaiting.prepareEach_ok prepare
  have start : Prepared c { prepared with
      log := (prepared.log.closePhase true).beginPhase "Generating" } := { before with }
  obtain ⟨_, asked, answered⟩ := start.actionsAt_places awaiting
  cases asked.symm.trans request
  have samePlaces : requested.places = c.places := by
    rw [places, answered.script, start.script, places]
  rw [samePlaces] at collected
  obtain ⟨made, passed⟩ := collect_ok collected fun place member => by
    rw [lookup_filterMap, if_pos member]
  have whole : c.places.filterMap (c.script[·]?) = c.script := requested_places c
  rw [whole] at made passed
  exact ⟨_, requested, start, answered, made, passed, rfl, by rw [log]⟩

/-- The output of a script, read off its references and the direct uses: `reached` gives the
features that a declaration is reached with, `output` the actions that the backend makes of it. -/
structure Output (profile : Profile) (backend : Backend) (added : List Nat)
    (uses : List (Identifier × Feature)) (c : Compilation) (reached : Nat → List Feature)
    (output : Nat → Feature → List Action) (actions : List Action) (after : Compilation) :
    Prop where
  script : c.script = added
  /-- No block stands twice in the script. -/
  distinct : (c.script.filterMap c.node?).Nodup
  ascending : ∀ i, (reached i).Pairwise (·.code < ·.code)
  reachable : ∀ i f, f ∈ reached i ↔ c.ReachedWith uses i f
  makes : ∀ i ∈ c.script, ∀ b, c.block? i = some b → ∀ f ∈ reached i,
    backend.Makes f (after.actionId? i f) b (output i f)
  actions_eq : actions = c.script.flatMap fun i => (reached i).flatMap (output i)
  deliveries : after.calls.filter Call.isDelivery =
    if backend.sets.isSome then (c.script.filter (reached · ≠ [])).filterMap c.delivery? else []
  /-- Nothing but the unused blocks is warned about. -/
  log : after.log = ((((c.unused profile reached).foldl Log.warn
    (c.log.beginPhase "Preparing")).closePhase true).beginPhase "Generating").closePhase true
  warnings : c.log.promotes = false →
    after.log.warnings = c.log.warnings ++ (c.unused profile reached).map Notice.ofWarning

/-- Whatever script went through the phases before it, a run without failure has this output. -/
theorem generate_exact (ready : Ready profile screen constants backend added uses c)
    (run : c.generate = (.ok actions, after)) :
    ∃ reached output, Output profile backend added uses c reached output actions after := by
  have awaiting := ready.awaiting
  obtain ⟨start, requested, prepared, answered, made, passed, rfl, log⟩ := awaiting.generate_ok run
  have ids (i : Nat) (f : Feature) : requested.actionId? i f = start.actionId? i f := by
    simp only [actionId?, answered.nodes, answered.ledger]
  have outputs (i : Nat) : ∃ output : Feature → List Action, i ∈ c.script →
      (∀ b, c.block? i = some b → ∀ f ∈ c.features i,
        backend.Makes f (requested.actionId? i f) b (output f)) ∧
      actionsIn (start.outcomeOf i).1 = (c.features i).flatMap output := by
    by_cases member : i ∈ c.script
    · obtain ⟨output, makes, all⟩ := outcomeOf_makes (passed i member)
      simp only [prepared.blocks, prepared.features, prepared.backend, awaiting.backend,
        ← ids] at makes all
      exact ⟨output, fun _ => ⟨makes, all⟩⟩
    · exact ⟨fun _ => [], fun inside => absurd inside member⟩
  choose output makes using outputs
  refine ⟨c.features, output, awaiting.script, awaiting.registered.distinct, features_ascending c,
    awaiting.reached, fun i member => (makes i member).1, ?_, ?_, ?_, ?_⟩
  · rw [made]
    exact List.flatMap_congr fun i member => (makes i member).2
  · have sameDeliveries : start.delivery? = c.delivery? := by
      funext i
      simp only [delivery?, prepared.blocks]
    show requested.calls.filter _ = _
    rw [answered.calls, prepared.calls, awaiting.calls, List.nil_append, deliveries_eq,
      prepared.backend, awaiting.backend, sameDeliveries, funext prepared.features]
  · show requested.log.closePhase true = _
    rw [answered.log, log]
  · intro keeps
    show (requested.log.closePhase true).warnings = _
    rw [Log.warnings_closePhase, answered.log, log]
    show (Log.closePhase _ true).warnings = _
    rw [Log.warnings_closePhase, Log.warnings_foldl_warn (by exact keeps)]
    rfl

/-- Makes a block and adds it at once. -/
def declare (c : Compilation) (b : Block) : Compilation :=
  ((c.make (.block b)).add c.declarations.length).2

theorem Assembled.declare {all : List Nat}
    (assembled : Assembled profile screen constants backend added c)
    (isNew : (Declaration.block b).IsNew)
    (passed : ((c.make (.block b)).add c.declarations.length).1 = .ok ())
    (last : added ++ [c.declarations.length] = all) :
    Assembled profile screen constants backend all (c.declare b) := by
  subst last
  have inside : c.declarations.length < (c.make (.block b)).declarations.length := by
    simp [Compilation.make]
  exact .add (assembled.make isNew) inside (Prod.ext passed rfl)

/-- A backend whose records tell feature and action ID. -/
def echo : Backend where
  groups := some fun _ f id => .ok [.raw [f.code, .ofNat (id.getD 255)]]
  layouts := some fun _ f id => .ok [.raw [f.code, .ofNat (id.getD 255)]]
  sets := some fun i _ => .ok (.ofNat i)

/-- A layout that refers to a group, which refers to a set, and a set that nothing refers to. -/
def yard : Compilation :=
  let walls : SpriteSet := ⟨⟨"walls", none⟩, none, [.real [] [] none], none, {}, -1, {}⟩
  let house : SpriteGroup :=
    ⟨⟨"house", none⟩, [⟨⟨"default", none⟩, [.ident ⟨"walls", none⟩], none⟩], none, {}⟩
  let yard : SpriteLayout :=
    ⟨⟨"yard", none⟩, [], [⟨⟨"building", none⟩, [⟨⟨"sprite", none⟩, .ident ⟨"house", none⟩⟩], none⟩],
      none, {}⟩
  let ruin : SpriteSet := ⟨⟨"ruin", none⟩, none, [], none, {}, -1, {}⟩
  [.set walls, .group house, .layout yard, .set ruin].foldl declare
    (.new {} { width := 80 } [] echo)

def yardUses : List (Identifier × Feature) :=
  [(⟨"yard", none⟩, ⟨7⟩), (⟨"house", none⟩, ⟨4⟩)]

def yardReady : Compilation :=
  (yardUses.foldl (fun c use => (c.use use.1 use.2).2) yard.validate.2.link.2).propagate.2

/-- The group is reached with a feature of its own and with that of the layout. -/
theorem generate_exact_yard : Ready {} { width := 80 } [] echo [0, 1, 2, 3] yardUses yardReady ∧
    ∃ actions after reached output, yardReady.generate = (.ok actions, after) ∧
      actions.map Action.bytes = [[4, 0], [7, 0], [7, 1]] ∧
      Output {} echo [0, 1, 2, 3] yardUses yardReady reached output actions after := by
  have assembled : Assembled {} { width := 80 } [] echo [0, 1, 2, 3] yard :=
    .declare (.declare (.declare (.declare .new
      (by exact ⟨rfl, rfl⟩) (by decide +kernel) rfl) (by exact ⟨rfl, rfl⟩) (by decide +kernel) rfl)
      (by exact ⟨rfl, rfl⟩) (by decide +kernel) rfl) (by exact ⟨rfl, rfl⟩) (by decide +kernel)
      (by decide +kernel)
  have ready : Ready {} { width := 80 } [] echo [0, 1, 2, 3] yardUses yardReady :=
    ⟨assembled, Prod.ext (by decide +kernel) rfl, Prod.ext (by decide +kernel) rfl,
      .cons (Prod.ext (by decide +kernel) rfl) (.cons (Prod.ext (by decide +kernel) rfl) .nil),
      Prod.ext (by decide +kernel) rfl⟩
  have bytes : yardReady.generate.1.map (List.map Action.bytes) = .ok [[4, 0], [7, 0], [7, 1]] := by
    decide +kernel
  cases answer : yardReady.generate.1 with
  | error failure =>
    rw [answer] at bytes
    cases bytes
  | ok actions =>
    rw [answer] at bytes
    have run : yardReady.generate = (.ok actions, yardReady.generate.2) := Prod.ext answer rfl
    obtain ⟨reached, output, spec⟩ := generate_exact ready run
    exact ⟨ready, actions, _, reached, output, run, Except.ok.inj bytes, spec⟩

end Compilation

end Grf
