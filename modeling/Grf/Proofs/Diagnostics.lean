import Grf.Proofs.Lifecycles

namespace Grf

/-- How many messages there were: errors, and warnings that were kept. -/
def Log.raised (log : Log) : Nat :=
  log.errorCount + log.warnings.length

namespace Log

/-- A warning is one more message, whether it counts as an error or not. -/
theorem raised_warn (log : Log) (w : Warning) : (log.warn w).raised = log.raised + 1 := by
  have fresh : (Notice.ofWarning w).isError = false := rfl
  unfold warn record raised
  cases log.promotes <;> simp [fresh] <;> omega

theorem raised_beginPhase (log : Log) (phase : String) :
    (log.beginPhase phase).raised = log.raised :=
  rfl

theorem raised_closePhase (log : Log) (succeeded : Bool) :
    (log.closePhase succeeded).raised = log.raised := by
  unfold closePhase endPhase
  split <;> rfl

theorem raised_foldl_warn (log : Log) (ws : List Warning) :
    (ws.foldl warn log).raised = log.raised + ws.length := by
  induction ws generalizing log with
  | nil => rfl
  | cons w rest ih =>
    rw [List.foldl_cons, ih, raised_warn, List.length_cons]
    omega

end Log

namespace Ledger

/-- The same ledger, which tells of unused nodes or does not. -/
def tell (warnUnused : Bool) (ledger : Ledger) : Ledger :=
  { ledger with warnUnused }

variable {ledger : Ledger} {w : Bool}

@[simp] theorem isPropagated_tell : (ledger.tell w).isPropagated = ledger.isPropagated := rfl

@[simp] theorem find?_tell (name : String) : (ledger.tell w).find? name = ledger.find? name := rfl

@[simp] theorem features_tell (n : Node) : (ledger.tell w).features n = ledger.features n := rfl

theorem enter_tell (e : Entry) : (ledger.tell w).enter e = (ledger.enter e).map (tell w) := by
  cases e with
  | define n =>
    dsimp only [enter, define]
    rw [isPropagated_tell, find?_tell]
    split
    · rfl
    · cases ledger.find? n.name.name <;> rfl
  | link source target =>
    dsimp only [enter, link]
    rw [isPropagated_tell]
    split <;> rfl
  | use n f =>
    dsimp only [enter, use]
    rw [isPropagated_tell]
    split <;> rfl

theorem propagate_tell : (ledger.tell w).propagate = ledger.propagate.map (tell w) := by
  unfold propagate
  rw [isPropagated_tell]
  split <;> rfl

/-- All that depends on it is the warning. -/
theorem prepare_tell (n : Node) :
    ((ledger.tell w).prepare n).used = (ledger.prepare n).used ∧
      ((ledger.tell w).prepare n).ledger = (ledger.prepare n).ledger.tell w := by
  have memo : (ledger.tell w).prepared.lookup n = ledger.prepared.lookup n := rfl
  have exhausted : (ledger.tell w).isExhausted = ledger.isExhausted := rfl
  unfold prepare
  rw [isPropagated_tell, memo, features_tell, exhausted]
  split
  · exact ⟨rfl, rfl⟩
  · cases ledger.prepared.lookup n with
    | some used => exact ⟨rfl, rfl⟩
    | none =>
      dsimp only
      split
      · exact ⟨rfl, rfl⟩
      · split
        · cases (ledger.features n).toList.find? ledger.isExhausted <;> exact ⟨rfl, rfl⟩
        · exact ⟨rfl, rfl⟩

end Ledger

namespace Compilation

/-- The same compilation with other diagnostics. -/
def retold (c : Compilation) (warnUnused : Bool) (log : Log) : Compilation :=
  { c with ledger := c.ledger.tell warnUnused, log }

/-- Two compilations that differ in their diagnostics at most. If they are even, both tell of unused
blocks or neither does, and they have raised as many messages. -/
structure Twins (even : Prop) (a b : Compilation) : Prop where
  frame : ∃ warnUnused log, b = a.retold warnUnused log
  raised : even → b.ledger.warnUnused = a.ledger.warnUnused ∧ b.log.raised = a.log.raised

variable {α : Type} {even : Prop} {a b : Compilation}

/-- The step gives the same result whatever the diagnostics are, and twins stay twins. -/
def Blind (f : Compilation → α × Compilation) : Prop :=
  ∀ even a b, Twins even a b → (f b).1 = (f a).1 ∧ Twins even (f a).2 (f b).2

/-- The step does not even touch the diagnostics. -/
def Steady (f : Compilation → α × Compilation) : Prop :=
  ∀ c warnUnused log, f (c.retold warnUnused log) = ((f c).1, (f c).2.retold warnUnused log)

theorem Steady.blind {f : Compilation → α × Compilation} (steady : Steady f) : Blind f := by
  rintro even a b ⟨⟨warnUnused, log, rfl⟩, raised⟩
  have same : (f a).2 = (f a).2.retold a.ledger.warnUnused a.log :=
    congrArg Prod.snd (steady a a.ledger.warnUnused a.log)
  rw [steady]
  refine ⟨rfl, ⟨warnUnused, log, rfl⟩, ?_⟩
  rw [same]
  exact raised

/-- Both runs of a step. -/
theorem Blind.run {f : Compilation → α × Compilation} (blind : Blind f) (twins : Twins even a b) :
    ∃ result nextA nextB, f a = (result, nextA) ∧ f b = (result, nextB) ∧
      Twins even nextA nextB := by
  obtain ⟨same, later⟩ := blind even a b twins
  exact ⟨(f a).1, (f a).2, (f b).2, rfl, Prod.ext same rfl, later⟩

namespace Twins

theorem script (twins : Twins even a b) : b.script = a.script := by
  obtain ⟨_, _, rfl⟩ := twins.frame
  rfl

theorem declarations (twins : Twins even a b) : b.declarations = a.declarations := by
  obtain ⟨_, _, rfl⟩ := twins.frame
  rfl

theorem library (twins : Twins even a b) : b.library = a.library := by
  obtain ⟨_, _, rfl⟩ := twins.frame
  rfl

theorem scope (twins : Twins even a b) : b.scope = a.scope := by
  obtain ⟨_, _, rfl⟩ := twins.frame
  rfl

theorem block? (twins : Twins even a b) (i : Nat) : b.block? i = a.block? i :=
  block?_congr twins.declarations i

theorem node? (twins : Twins even a b) (i : Nat) : b.node? i = a.node? i :=
  node?_congr twins.declarations i

theorem update (twins : Twins even a b) (i : Nat) (d : Declaration) :
    Twins even (a.update i d) (b.update i d) := by
  obtain ⟨⟨warnUnused, log, rfl⟩, raised⟩ := twins
  exact ⟨⟨warnUnused, log, rfl⟩, raised⟩

theorem replied (twins : Twins even a b) (i : Nat) (calls : List Call) (e : Block) :
    Twins even (a.replied i calls e) (b.replied i calls e) := by
  obtain ⟨⟨warnUnused, log, rfl⟩, raised⟩ := twins
  exact ⟨⟨warnUnused, log, rfl⟩, raised⟩

/-- Both logs go on, by as many messages. -/
theorem relog (twins : Twins even a b) {first second : Log}
    (kept : b.log.raised = a.log.raised → second.raised = first.raised) :
    Twins even { a with log := first } { b with log := second } := by
  obtain ⟨⟨warnUnused, log, rfl⟩, raised⟩ := twins
  exact ⟨⟨warnUnused, second, rfl⟩, fun isEven => ⟨(raised isEven).1, kept (raised isEven).2⟩⟩

/-- Encoders see nothing of the diagnostics. -/
theorem reply (twins : Twins even a b) (i : Nat) (e : Block) (used : Except Failure Bool) :
    b.reply i e used = a.reply i e used := by
  obtain ⟨_, _, rfl⟩ := twins.frame
  cases used with
  | error failure => rfl
  | ok used =>
    cases used with
    | false => rfl
    | true => cases e <;> rfl

end Twins

theorem add_steady (i : Nat) : Steady fun c => c.add i := by
  intro c w log
  have declared : (c.retold w log).declarations = c.declarations := rfl
  dsimp only [add]
  rw [declared]
  cases c.declarations[i]? with
  | none => rfl
  | some d =>
    cases d with
    | template t contents => rfl
    | block e =>
      have defined : (c.retold w log).ledger.define (e.node i) =
          (c.ledger.define (e.node i)).map (Ledger.tell w) := Ledger.enter_tell (.define (e.node i))
      dsimp only
      rw [defined]
      cases c.ledger.define (e.node i) <;> rfl

theorem register_steady (i : Nat) : Steady fun c => c.register i := by
  intro c w log
  have declared : (c.retold w log).declarations = c.declarations := rfl
  have library : (c.retold w log).library = c.library := rfl
  dsimp only [register]
  rw [declared]
  cases c.declarations[i]? with
  | none => rfl
  | some d =>
    cases d with
    | template t contents =>
      dsimp only
      rw [library]
      cases c.library.register t <;> rfl
    | block e => rfl

/-- A layout with parameters gives rise to a warning, one in each run. -/
theorem validateOne_blind (i : Nat) : Blind fun c => c.validateOne i := by
  intro even a b twins
  have declared : b.declarations[i]? = a.declarations[i]? := by rw [twins.declarations]
  cases found : a.declarations[i]? with
  | none =>
    simp only [validateOne, declared, found]
    exact ⟨trivial, twins⟩
  | some d =>
    cases d with
    | template t contents =>
      simp only [validateOne, declared, found]
      exact (register_steady i).blind even a b twins
    | block e =>
      cases e with
      | set s =>
        simp only [validateOne, declared, found, twins.library]
        cases s.validate a.library with
        | error failure => exact ⟨rfl, twins⟩
        | ok s => exact ⟨rfl, twins.update i _⟩
      | group g =>
        simp only [validateOne, declared, found, twins.scope]
        exact ⟨trivial, twins.update i _⟩
      | layout l =>
        simp only [validateOne, declared, found, twins.scope]
        refine ⟨trivial, (twins.relog ?_).update i _⟩
        intro same
        split
        · exact same
        · rw [Log.raised_warn, Log.raised_warn, same]

theorem validateEach_blind (is : List Nat) : Blind fun c => c.validateEach is := by
  induction is with
  | nil => exact fun _ a b twins => ⟨rfl, twins⟩
  | cons i rest ih =>
    intro even a b twins
    obtain ⟨result, nextA, nextB, runA, runB, later⟩ := (validateOne_blind i).run twins
    simp only [validateEach, runA, runB]
    cases result with
    | error failure => exact ⟨rfl, later⟩
    | ok => exact ih even nextA nextB later

theorem validate_blind : Blind validate := by
  intro even a b twins
  unfold validate
  rw [twins.script]
  exact validateEach_blind a.script even a b twins

theorem linkEach_steady (source : Node) (references : List Reference) :
    Steady fun c => c.linkEach source references := by
  induction references with
  | nil => exact fun _ _ _ => rfl
  | cons r rest ih =>
    intro c w log
    have resolved : (c.retold w log).resolve r = c.resolve r := rfl
    dsimp only [linkEach]
    rw [resolved]
    cases c.resolve r with
    | error failure => rfl
    | ok target =>
      have linked : (c.retold w log).ledger.link source target =
          (c.ledger.link source target).map (Ledger.tell w) :=
        Ledger.enter_tell (.link source target)
      dsimp only
      rw [linked]
      split
      · cases c.ledger.link source target with
        | error failure => rfl
        | ok ledger => exact ih { c with ledger } w log
      · rfl

theorem linkAll_blind (is : List Nat) : Blind fun c => c.linkAll is := by
  induction is with
  | nil => exact fun _ a b twins => ⟨rfl, twins⟩
  | cons i rest ih =>
    intro even a b twins
    cases found : a.block? i with
    | none =>
      simp only [linkAll, twins.block? i, found]
      exact ih even a b twins
    | some e =>
      obtain ⟨result, nextA, nextB, runA, runB, later⟩ :=
        (linkEach_steady (e.node i) e.references).blind.run twins
      simp only [linkAll, twins.block? i, found, runA, runB]
      cases result with
      | error failure => exact ⟨rfl, later⟩
      | ok => exact ih even nextA nextB later

theorem link_blind : Blind link := by
  intro even a b twins
  obtain ⟨result, nextA, nextB, runA, runB, later⟩ := (linkAll_blind a.script).run twins
  simp only [link, twins.script, runA, runB]
  cases result with
  | error failure => exact ⟨rfl, later⟩
  | ok =>
    obtain ⟨_, _, rfl⟩ := later.frame
    exact ⟨rfl, later⟩

theorem use_steady (id : Identifier) (f : Feature) : Steady fun c => c.use id f := by
  intro c w log
  have known : (c.retold w log).ledger.find? id.name = c.ledger.find? id.name := rfl
  dsimp only [use]
  rw [known]
  split
  · rfl
  · cases c.ledger.find? id.name with
    | none => rfl
    | some n =>
      have used : (c.retold w log).ledger.use n f = (c.ledger.use n f).map (Ledger.tell w) :=
        Ledger.enter_tell (.use n f)
      dsimp only
      rw [used]
      cases c.ledger.use n f <;> rfl

theorem propagate_steady : Steady propagate := by
  intro c w log
  have propagated : (c.retold w log).ledger.propagate = c.ledger.propagate.map (Ledger.tell w) :=
    Ledger.propagate_tell
  unfold propagate
  rw [propagated]
  cases c.ledger.propagate <;> rfl

theorem prepare_blind (i : Nat) : Blind fun c => c.prepare i := by
  intro even a b twins
  have node := twins.node? i
  cases found : a.node? i with
  | none =>
    simp only [prepare_none found, prepare_none (node.trans found)]
    exact ⟨trivial, twins⟩
  | some n =>
    obtain ⟨⟨w, log, rfl⟩, raised⟩ := twins
    have used : ((a.retold w log).ledger.prepare n).used = (a.ledger.prepare n).used :=
      (Ledger.prepare_tell n).1
    have ledger : ((a.retold w log).ledger.prepare n).ledger =
        (a.ledger.prepare n).ledger.tell w := (Ledger.prepare_tell n).2
    simp only [prepare_some found, prepare_some (node.trans found), used, ledger]
    refine ⟨trivial, ⟨w, _, rfl⟩, ?_⟩
    -- With the same setting the ledgers are the same, and so is the warning.
    intro isEven
    obtain ⟨setting, before⟩ : w = a.ledger.warnUnused ∧ log.raised = a.log.raised := raised isEven
    obtain ⟨prepared, allocations, frame⟩ := a.ledger.prepare_frame n
    subst setting
    refine ⟨?_, ?_⟩
    · rw [frame]
      rfl
    · rw [Log.raised_foldl_warn, Log.raised_foldl_warn]
      exact congrArg (· + _) before

theorem prepareEach_blind (is : List Nat) : Blind fun c => c.prepareEach is := by
  induction is with
  | nil => exact fun _ a b twins => ⟨rfl, twins⟩
  | cons i rest ih =>
    intro even a b twins
    obtain ⟨result, nextA, nextB, runA, runB, later⟩ := (prepare_blind i).run twins
    simp only [prepareEach, runA, runB]
    cases result with
    | error failure => exact ⟨rfl, later⟩
    | ok used => exact ih even nextA nextB later

theorem actions_blind (i : Nat) : Blind fun c => c.actions i := by
  intro even a b twins
  have block := twins.block? i
  cases found : a.block? i with
  | none =>
    simp only [actions_none found, actions_none (block.trans found)]
    exact ⟨trivial, twins⟩
  | some e =>
    cases standing : e.standing? with
    | some answer =>
      simp only [actions_standing found standing, actions_standing (block.trans found) standing]
      exact ⟨trivial, twins⟩
    | none =>
      obtain ⟨used, nextA, nextB, runA, runB, later⟩ := (prepare_blind i).run twins
      simp only [actions_reply found standing, actions_reply (block.trans found) standing, runA,
        runB, later.reply]
      exact ⟨trivial, later.replied i _ _⟩

theorem actionsAt_blind (schedule : List Nat) : Blind fun c => c.actionsAt schedule := by
  induction schedule with
  | nil => exact fun _ a b twins => ⟨rfl, twins⟩
  | cons place rest ih =>
    intro even a b twins
    cases atPlace : a.script[place]? with
    | none =>
      simp only [actionsAt, twins.script, atPlace]
      exact ih even a b twins
    | some i =>
      obtain ⟨answer, nextA, nextB, runA, runB, later⟩ := (actions_blind i).run twins
      obtain ⟨answers, lastA, lastB, restA, restB, last⟩ := ih.run later
      simp only [actionsAt, twins.script, atPlace, runA, runB, restA, restB]
      exact ⟨trivial, last⟩

theorem concludeBy_blind (schedule : List Nat) : Blind (concludeBy schedule) := by
  intro even a b twins
  obtain ⟨answers, nextA, nextB, runA, runB, later⟩ := (actionsAt_blind schedule).run twins
  have same : nextB.places = nextA.places := by rw [places, places, later.script]
  simp only [concludeBy, runA, runB, same]
  refine ⟨trivial, later.relog ?_⟩
  rw [Log.raised_closePhase, Log.raised_closePhase]
  exact id

/-- The phases are shown or not, and raise no messages. -/
theorem generateBy_blind (schedule : List Nat) : Blind (generateBy schedule) := by
  intro even a b twins
  have begun : Twins even { a with log := a.log.beginPhase "Preparing" }
      { b with log := b.log.beginPhase "Preparing" } := twins.relog id
  obtain ⟨result, nextA, nextB, runA, runB, later⟩ := (prepareEach_blind a.script).run begun
  rw [← twins.script] at runB
  cases result with
  | error failure =>
    rw [generateBy_unprepared runA, generateBy_unprepared runB]
    refine ⟨rfl, later.relog ?_⟩
    rw [Log.raised_closePhase, Log.raised_closePhase]
    exact id
  | ok =>
    rw [generateBy_prepared runA, generateBy_prepared runB]
    refine concludeBy_blind schedule even _ _ (later.relog ?_)
    rw [Log.raised_beginPhase, Log.raised_beginPhase, Log.raised_closePhase, Log.raised_closePhase]
    exact id

/-- What an operation returns. -/
inductive Outcome where
  | done
  | verdict (result : Except Failure Unit)
  | decision (used : Except Failure Bool)
  | output (actions : Except Failure (List Action))

def outcome (c : Compilation) : Operation → Outcome
  | .make _ => .done
  | .add i => .verdict (c.add i).1
  | .register i => .verdict (c.register i).1
  | .validateOne i => .verdict (c.validateOne i).1
  | .validate => .verdict c.validate.1
  | .link => .verdict c.link.1
  | .use id f => .verdict (c.use id f).1
  | .propagate => .verdict c.propagate.1
  | .prepare i => .decision (c.prepare i).1
  | .actions i => .output (c.actions i).1
  | .generate schedule => .output (c.generateBy schedule).1
  | .equip _ => .done

/-- What operations return, one after the other. -/
def outcomes (c : Compilation) : List Operation → List Outcome
  | [] => []
  | operation :: rest => c.outcome operation :: (c.perform operation).outcomes rest

theorem perform_twins (twins : Twins even a b) (operation : Operation) :
    b.outcome operation = a.outcome operation ∧
      Twins even (a.perform operation) (b.perform operation) := by
  cases operation with
  | make d =>
    obtain ⟨⟨w, log, rfl⟩, raised⟩ := twins
    exact ⟨rfl, ⟨w, log, rfl⟩, raised⟩
  | add i => exact ((add_steady i).blind even a b twins).imp_left (congrArg _)
  | register i => exact ((register_steady i).blind even a b twins).imp_left (congrArg _)
  | validateOne i => exact (validateOne_blind i even a b twins).imp_left (congrArg _)
  | validate => exact (validate_blind even a b twins).imp_left (congrArg _)
  | link => exact (link_blind even a b twins).imp_left (congrArg _)
  | use id f => exact ((use_steady id f).blind even a b twins).imp_left (congrArg _)
  | propagate => exact (propagate_steady.blind even a b twins).imp_left (congrArg _)
  | prepare i => exact (prepare_blind i even a b twins).imp_left (congrArg _)
  | actions i => exact (actions_blind i even a b twins).imp_left (congrArg _)
  | generate schedule => exact (generateBy_blind schedule even a b twins).imp_left (congrArg _)
  | equip backend =>
    obtain ⟨⟨w, log, rfl⟩, raised⟩ := twins
    exact ⟨rfl, ⟨w, log, rfl⟩, raised⟩

theorem performAll_twins (twins : Twins even a b) (operations : List Operation) :
    b.outcomes operations = a.outcomes operations ∧
      Twins even (a.performAll operations) (b.performAll operations) := by
  induction operations generalizing a b with
  | nil => exact ⟨rfl, twins⟩
  | cons operation rest ih =>
    obtain ⟨same, next⟩ := perform_twins twins operation
    obtain ⟨others, last⟩ := ih next
    exact ⟨List.cons_eq_cons.mpr ⟨same, others⟩, last⟩

/-- What can be seen of two compilations, apart from their messages, is the same. -/
structure Agree (a b : Compilation) : Prop where
  actionIds : ∀ i f, b.actionId? i f = a.actionId? i f
  features : ∀ i, b.features i = a.features i
  stages : ∀ i, b.stage? i = a.stage? i
  declarations : b.declarations = a.declarations
  calls : b.calls = a.calls

theorem Twins.agree (twins : Twins even a b) : Agree a b := by
  obtain ⟨_, _, rfl⟩ := twins.frame
  exact ⟨fun _ _ => rfl, fun _ => rfl, fun _ => rfl, rfl, rfl⟩

/-- The settings that concern messages have no influence on anything else: for all operations in any
order, results, action IDs, features, stages and calls are the same. Nor do those for level and
promotion have an influence on the number of messages. -/
theorem diagnostics_invisible (profile : Profile) (logLevel : Int64)
    (warnUnused warningsAsErrors : Bool) (screen : Screen) (constants : List (String × Expr))
    (backend : Backend) (operations : List Operation) :
    (new { profile with logLevel, warnUnused, warningsAsErrors } screen constants backend).outcomes
        operations =
      (new profile screen constants backend).outcomes operations ∧
    Agree ((new profile screen constants backend).performAll operations)
      ((new { profile with logLevel, warnUnused, warningsAsErrors } screen constants
        backend).performAll operations) ∧
    (warnUnused = profile.warnUnused →
      ((new { profile with logLevel, warnUnused, warningsAsErrors } screen constants
          backend).performAll operations).log.raised =
        ((new profile screen constants backend).performAll operations).log.raised) := by
  have start : Twins (warnUnused = profile.warnUnused) (new profile screen constants backend)
      (new { profile with logLevel, warnUnused, warningsAsErrors } screen constants backend) :=
    ⟨⟨warnUnused, _, rfl⟩, fun setting => ⟨setting, rfl⟩⟩
  obtain ⟨same, last⟩ := performAll_twins start operations
  exact ⟨same, last.agree, fun setting => (last.raised setting).2⟩

end Compilation

end Grf
