import Grf.Profile.Settings
import Grf.Proofs.Invocations
import Grf.Proofs.Output
import Grf.Proofs.Validation

namespace Grf

namespace Profile

theorem maxIds_ofSettings {settings : Settings} {profile : Profile}
    (accepted : ofSettings settings = .ok profile) : profile.maxIds.toInt ≤ 255 := by
  unfold ofSettings at accepted
  dsimp only at accepted
  split at accepted
  · cases accepted
  · split at accepted
    · cases accepted
    · split at accepted
      · cases accepted
      · split at accepted
        · cases accepted
        · rename_i within
          cases accepted
          dsimp only
          split
          · decide
          · have below := (not_or.mp within).2
            rw [Int64.lt_iff_toInt_lt] at below
            exact Int.not_lt.mp below

end Profile

namespace Ledger

variable {ledger after : Ledger} {n : Node}

theorem Listed.enter (listed : ledger.Listed) {e : Entry} (run : ledger.enter e = .ok after)
    (known : ∀ n f, e = .use n f → f.isListed = true) : after.Listed := by
  cases e with
  | define n =>
    obtain ⟨_, _, rfl⟩ := define_eq_ok.mp run
    exact listed
  | link source target =>
    obtain ⟨_, rfl⟩ := link_eq_ok.mp run
    exact listed
  | use n f =>
    obtain ⟨_, rfl⟩ := use_eq_ok.mp run
    have here := known n f rfl
    simpa [Listed, or_imp, forall_and, here] using listed

theorem Listed.propagate (listed : ledger.Listed) (run : ledger.propagate = .ok after) :
    after.Listed := by
  obtain ⟨carried, rfl, reached⟩ := carried_of_propagate run
  intro use member
  rcases List.mem_append.mp member with direct | inherited
  · exact listed use (List.mem_append_left _ direct)
  · obtain ⟨r, root, _⟩ := (reached use.1 use.2).mp inherited
    exact listed (r, use.2) (List.mem_append_left _ root)

end Ledger

namespace Compilation

variable {c mid after : Compilation} {i : Nat} {is : List Nat}

/-- No call is made. Blocks that have an answer keep one. -/
structure Quiet (c after : Compilation) : Prop where
  changes : Ledger.Changes c.ledger after.ledger
  listed : c.ledger.Listed → after.ledger.Listed
  calls : after.calls = c.calls
  answered : ∀ i b, c.block? i = some b → b.lifecycle.outcome ≠ none →
    ∃ a, after.block? i = some a ∧ a.lifecycle.outcome ≠ none

namespace Quiet

theorem refl (c : Compilation) : Quiet c c :=
  ⟨.refl, id, rfl, fun _ b found answered => ⟨b, found, answered⟩⟩

theorem trans (first : Quiet c mid) (second : Quiet mid after) : Quiet c after where
  changes := first.changes.trans second.changes
  listed := second.listed ∘ first.listed
  calls := second.calls.trans first.calls
  answered := by
    intro i b found answered
    obtain ⟨a, atMid, later⟩ := first.answered i b found answered
    exact second.answered i a atMid later

theorem traced (quiet : Quiet c after) : Traced c [] after where
  calls := by rw [quiet.calls, List.map_nil, List.append_nil]
  licensed := by simp
  sound := by
    intro sound
    refine ⟨sound.numbered.changes quiet.changes, ?_, quiet.listed sound.listed, ?_, ?_⟩
    · rw [quiet.changes.capacity]
      exact sound.capacity
    · rw [quiet.calls]
      intro call member
      obtain ⟨b, found, answered⟩ := sound.answered call member
      exact quiet.answered _ b found answered
    · rw [quiet.calls]
      exact sound.distinct

/-- The ledger moves on, and no block takes part in that. -/
theorem of_ledger (changes : Ledger.Changes c.ledger after.ledger)
    (listed : c.ledger.Listed → after.ledger.Listed) (calls : after.calls = c.calls)
    (blocks : ∀ i, after.block? i = c.block? i) : Quiet c after := by
  refine ⟨changes, listed, calls, ?_⟩
  intro i b found answered
  exact ⟨b, (blocks i).trans found, answered⟩

theorem enter {ledger : Ledger} {e : Ledger.Entry} (run : c.ledger.enter e = .ok ledger)
    (known : ∀ n f, e = .use n f → f.isListed = true) : Quiet c { c with ledger } :=
  .of_ledger (.single (Ledger.enter_change run)) (fun listed => listed.enter run known) rfl
    fun _ => rfl

theorem of_progressed (progressed : Progressed c after) : Quiet c after := by
  have changes := progressed.changes
  obtain ⟨_, _, _, rfl⟩ := progressed.frame
  exact .of_ledger changes id rfl fun _ => rfl

theorem of_revised (revised : Revised c after) : Quiet c after := by
  refine ⟨?_, ?_, revised.calls, ?_⟩
  · rw [revised.ledger]
    exact .refl
  · rw [revised.ledger]
    exact id
  · intro i b found answered
    obtain ⟨a, atI, _⟩ := node?_eq_some.mp ((revised.nodes i).trans (node?_of_block? found))
    refine ⟨a, atI, ?_⟩
    obtain ⟨b', before, same | moved⟩ := revised.blocks i a atI
    · cases before.symm.trans found
      rwa [same]
    · cases before.symm.trans found
      rwa [moved, Lifecycle.validate_outcome]

end Quiet

theorem log_quiet (c : Compilation) (log : Log) : Quiet c { c with log } := by
  exact .of_ledger .refl id rfl fun _ => rfl

theorem make_quiet (c : Compilation) (d : Declaration) : Quiet c (c.make d) := by
  refine ⟨.refl, id, rfl, ?_⟩
  intro i b found answered
  obtain ⟨inside, _⟩ := List.getElem?_eq_some_iff.mp (block?_eq_some.mp found)
  refine ⟨b, block?_eq_some.mpr ?_, answered⟩
  rw [make, List.getElem?_append_left inside]
  exact block?_eq_some.mp found

theorem add_quiet (c : Compilation) (i : Nat) : Quiet c (c.add i).2 := by
  unfold add
  split
  · exact .refl c
  · exact .of_ledger .refl id rfl fun _ => rfl
  · split
    · exact .refl c
    · rename_i b _ _ ledger defined
      have quiet : Quiet c { c with ledger } := .enter (e := .define (b.node i)) defined (by simp)
      exact quiet.trans (.of_ledger .refl id rfl fun _ => rfl)

theorem linkEach_quiet (c : Compilation) (source : Node) (references : List Reference) :
    Quiet c (c.linkEach source references).2 := by
  induction references generalizing c with
  | nil => exact .refl c
  | cons r rest ih =>
    unfold linkEach
    split
    · exact .refl c
    · rename_i target _
      split
      · split
        · exact .refl c
        · rename_i ledger linked
          have quiet : Quiet c { c with ledger } :=
            .enter (e := .link source target) linked (by simp)
          exact quiet.trans (ih _)
      · exact .refl c

theorem linkAll_quiet (c : Compilation) (is : List Nat) : Quiet c (c.linkAll is).2 := by
  induction is generalizing c with
  | nil => exact .refl c
  | cons i rest ih =>
    unfold linkAll
    split
    · exact ih c
    · rename_i b _
      have first := c.linkEach_quiet (b.node i) b.references
      split
      · rename_i run
        rwa [run] at first
      · rename_i run
        rw [run] at first
        exact first.trans (ih _)

theorem link_quiet (c : Compilation) : Quiet c c.link.2 := by
  have quiet := c.linkAll_quiet c.script
  unfold link
  split <;> rename_i run <;> rwa [run] at quiet

theorem use_quiet (c : Compilation) (id : Identifier) (f : Feature) : Quiet c (c.use id f).2 := by
  unfold use
  split
  · exact .refl c
  · rename_i listed
    split
    · exact .refl c
    · rename_i n _
      split
      · exact .refl c
      · rename_i ledger used
        refine .enter (e := .use n f) used ?_
        rintro _ _ ⟨⟩
        simpa using listed

theorem propagate_quiet (c : Compilation) : Quiet c c.propagate.2 := by
  unfold propagate
  split
  · exact .refl c
  · rename_i ledger run
    have change := Ledger.propagate_change run
    exact .of_ledger (.single change) (fun listed => listed.propagate run) rfl fun _ => rfl

/-- The calls for a request. They are made when the declaration is prepared. -/
def requestInvocations (c : Compilation) (i : Nat) : List Invocation :=
  match c.block? i with
  | none => []
  | some b =>
    match b.standing? with
    | some _ => []
    | none => ((c.prepare i).2.reply i b (c.prepare i).1).2.1.map fun call =>
      ⟨(c.prepare i).2, call⟩

theorem actions_traced (c : Compilation) (i : Nat) :
    Traced c (c.requestInvocations i) (c.actions i).2 := by
  cases found : c.block? i with
  | none =>
    simp only [requestInvocations, found, actions_none found]
    exact .refl c
  | some b =>
    cases standing : b.standing? with
    | some answer =>
      simp only [requestInvocations, found, standing, actions_standing found standing]
      exact .refl c
    | none =>
      simp only [requestInvocations, found, standing, actions_reply found standing]
      -- The calls come after the preparation, which may give out IDs but makes no call.
      have prepared := Quiet.of_progressed (c.prepare_progressed i)
      refine prepared.traced.trans (reply_traced ?_ standing ?_)
      · exact ((c.prepare_progressed i).block? i).trans found
      · rw [prepare_some (node?_of_block? found)]
        exact Ledger.lookup_prepare

/-- The calls for the requests in the order of a schedule. -/
def scheduleInvocations (c : Compilation) : List Nat → List Invocation
  | [] => []
  | place :: rest =>
    match c.script[place]? with
    | none => c.scheduleInvocations rest
    | some i => c.requestInvocations i ++ (c.actions i).2.scheduleInvocations rest

theorem actionsAt_traced (c : Compilation) (schedule : List Nat) :
    Traced c (c.scheduleInvocations schedule) (c.actionsAt schedule).2 := by
  induction schedule generalizing c with
  | nil => exact .refl c
  | cons place rest ih =>
    cases atPlace : c.script[place]? with
    | none =>
      simp only [scheduleInvocations, actionsAt, atPlace]
      exact ih c
    | some i =>
      simp only [scheduleInvocations, actionsAt, atPlace]
      exact (c.actions_traced i).trans (ih _)

theorem concludeBy_traced (c : Compilation) (schedule : List Nat) :
    Traced c (c.scheduleInvocations schedule) (c.concludeBy schedule).2 := by
  rw [← List.append_nil (c.scheduleInvocations schedule)]
  exact (c.actionsAt_traced schedule).trans (log_quiet _ _).traced

/-- All that can be asked of a compilation and may change it, in any order. The backend may be
another one from some time on. -/
inductive Operation where
  | make (d : Declaration)
  | add (i : Nat)
  | register (i : Nat)
  | validateOne (i : Nat)
  | validate
  | link
  | use (id : Identifier) (f : Feature)
  | propagate
  | prepare (i : Nat)
  | actions (i : Nat)
  | generate (schedule : List Nat)
  | equip (backend : Backend)

/-- The compilation after an operation, whether that fails or not. -/
def perform (c : Compilation) : Operation → Compilation
  | .make d => c.make d
  | .add i => (c.add i).2
  | .register i => (c.register i).2
  | .validateOne i => (c.validateOne i).2
  | .validate => c.validate.2
  | .link => c.link.2
  | .use id f => (c.use id f).2
  | .propagate => c.propagate.2
  | .prepare i => (c.prepare i).2
  | .actions i => (c.actions i).2
  | .generate schedule => (c.generateBy schedule).2
  | .equip backend => { c with backend }

/-- The calls that an operation makes. -/
def invocations (c : Compilation) : Operation → List Invocation
  | .actions i => c.requestInvocations i
  | .generate schedule =>
    match prepareEach { c with log := c.log.beginPhase "Preparing" } c.script with
    | (.error _, _) => []
    | (.ok _, c) =>
      scheduleInvocations { c with log := (c.log.closePhase true).beginPhase "Generating" } schedule
  | _ => []

theorem generateBy_traced (c : Compilation) (schedule : List Nat) :
    Traced c (c.invocations (.generate schedule)) (c.generateBy schedule).2 := by
  have prepared := (c.log_quiet (c.log.beginPhase "Preparing")).trans
    (.of_progressed (prepareEach_progressed _ c.script))
  cases run : prepareEach { c with log := c.log.beginPhase "Preparing" } c.script with
  | mk result mid =>
    rw [run] at prepared
    cases result with
    | error failure =>
      simp only [invocations, run, generateBy_unprepared run]
      exact (prepared.trans (mid.log_quiet _)).traced
    | ok =>
      simp only [invocations, run, generateBy_prepared run]
      exact (prepared.trans (mid.log_quiet _)).traced.trans (concludeBy_traced _ schedule)

theorem perform_traced (c : Compilation) (operation : Operation) :
    Traced c (c.invocations operation) (c.perform operation) := by
  cases operation with
  | make d => exact (c.make_quiet d).traced
  | add i => exact (c.add_quiet i).traced
  | register i => exact (Quiet.of_revised (register_revised rfl).1).traced
  | validateOne i => exact (Quiet.of_revised (validateOne_revised rfl).1).traced
  | validate => exact (Quiet.of_revised (validateEach_revised rfl).1).traced
  | link => exact c.link_quiet.traced
  | use id f => exact (c.use_quiet id f).traced
  | propagate => exact c.propagate_quiet.traced
  | prepare i => exact (Quiet.of_progressed (c.prepare_progressed i)).traced
  | actions i => exact c.actions_traced i
  | generate schedule => exact c.generateBy_traced schedule
  | equip backend =>
    have quiet : Quiet c { c with backend } := by exact .of_ledger .refl id rfl fun _ => rfl
    exact quiet.traced

def performAll (c : Compilation) (operations : List Operation) : Compilation :=
  operations.foldl perform c

/-- The calls that operations make, one after the other. -/
def history (c : Compilation) : List Operation → List Invocation
  | [] => []
  | operation :: rest => c.invocations operation ++ (c.perform operation).history rest

theorem performAll_traced (c : Compilation) (operations : List Operation) :
    Traced c (c.history operations) (c.performAll operations) := by
  induction operations generalizing c with
  | nil => exact .refl c
  | cons operation rest ih => exact (c.perform_traced operation).trans (ih _)

theorem new_sound {profile : Profile} (within : profile.maxIds.toInt ≤ 255) (screen : Screen)
    (constants : List (String × Expr)) (backend : Backend) :
    (new profile screen constants backend).Sound where
  numbered := .blank profile.warnUnused profile.maxIds
  capacity := within
  listed := by simp [Ledger.Listed, new]
  answered := by simp [new]
  distinct := List.nodup_nil

/-- Under a profile that settings were accepted for, whatever is done and in whatever order, no
encoder is called without a licence, and nothing is called for one purpose twice. -/
theorem invocations_licensed {settings : Settings} {profile : Profile}
    (accepted : Profile.ofSettings settings = .ok profile) (screen : Screen)
    (constants : List (String × Expr)) (backend : Backend) (operations : List Operation) :
    ((new profile screen constants backend).performAll operations).calls =
        ((new profile screen constants backend).history operations).map (·.call) ∧
      (∀ v ∈ (new profile screen constants backend).history operations, v.Licensed) ∧
      (((new profile screen constants backend).performAll operations).calls.map
        Call.purpose).Nodup := by
  have traced := (new profile screen constants backend).performAll_traced operations
  have sound := new_sound (Profile.maxIds_ofSettings accepted) screen constants backend
  exact ⟨traced.calls, traced.licensed sound, (traced.sound sound).distinct⟩

/-- The yard is put together, the group is asked twice on its own, and the whole script is asked
twice. One set is asked too early. -/
def yardOperations : List Operation :=
  yard.declarations.map .make ++
    [.add 0, .add 1, .add 2, .add 3, .validate, .link, .use ⟨"yard", none⟩ ⟨7⟩,
      .use ⟨"house", none⟩ ⟨4⟩, .actions 3, .propagate, .actions 1, .actions 1,
      .generate [3, 2, 1, 0], .generate [0, 1, 2, 3]]

/-- With two IDs for a feature, the group and the layout have one each. -/
theorem invocations_licensed_yard :
    Profile.ofSettings { maxIds := some 2 } = .ok { maxIds := 2 } ∧
      ((new { maxIds := 2 } { width := 80 } [] echo).history yardOperations).map (·.call.purpose) =
        [(1, some ⟨4⟩), (1, some ⟨7⟩), (2, some ⟨7⟩), (0, none)] ∧
      ∀ v ∈ (new { maxIds := 2 } { width := 80 } [] echo).history yardOperations, v.Licensed := by
  have accepted : Profile.ofSettings { maxIds := some 2 } = .ok { maxIds := 2 } := by decide
  have licensed := invocations_licensed accepted { width := 80 } [] echo yardOperations
  exact ⟨accepted, by decide +kernel, licensed.2.1⟩

end Compilation

end Grf
