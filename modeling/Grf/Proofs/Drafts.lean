import Grf.Proofs.Courses

namespace Grf.Compilation

variable {c mid after : Compilation} {i : Nat}

/-- The script stays as it is, and so does the graph of its blocks. -/
structure Keeps (c after : Compilation) : Prop where
  script : after.script = c.script
  length : after.declarations.length = c.declarations.length
  nodes : ∀ i, after.node? i = c.node? i
  ledger : ∃ uses prepared allocations,
    after.ledger = { c.ledger with uses, prepared, allocations }

namespace Keeps

/-- The same ledger and declarations, whatever else differs. -/
theorem of_eq (script : after.script = c.script)
    (declarations : after.declarations = c.declarations) (ledger : after.ledger = c.ledger) :
    Keeps c after where
  script := script
  length := by rw [declarations]
  nodes i := node?_congr declarations i
  ledger := ⟨_, _, _, ledger⟩

theorem refl (c : Compilation) : Keeps c c :=
  .of_eq rfl rfl rfl

theorem trans (first : Keeps c mid) (second : Keeps mid after) : Keeps c after where
  script := second.script.trans first.script
  length := second.length.trans first.length
  nodes i := (second.nodes i).trans (first.nodes i)
  ledger := by
    obtain ⟨_, _, _, before⟩ := first.ledger
    obtain ⟨uses, prepared, allocations, later⟩ := second.ledger
    rw [before] at later
    exact ⟨uses, prepared, allocations, later⟩

theorem of_revised (revised : Revised c after)
    (length : after.declarations.length = c.declarations.length) : Keeps c after :=
  ⟨revised.script, length, revised.nodes, _, _, _, revised.ledger⟩

theorem of_progressed (progressed : Progressed c after) : Keeps c after := by
  obtain ⟨prepared, allocations, log, rfl⟩ := progressed.frame
  exact ⟨rfl, rfl, fun _ => rfl, _, prepared, allocations, rfl⟩

end Keeps

theorem use_keeps (c : Compilation) (id : Identifier) (f : Feature) : Keeps c (c.use id f).2 := by
  rcases c.use_cases id f with same | ⟨n, used⟩
  · rw [same]
    exact .refl c
  · rw [used]
    exact ⟨rfl, rfl, fun _ => rfl, _, _, _, rfl⟩

theorem actions_keeps (c : Compilation) (i : Nat) : Keeps c (c.actions i).2 := by
  have prepared := Keeps.of_progressed (c.prepare_progressed i)
  rcases c.actions_cases i with same | ⟨b, found, pending⟩
  · rw [same]
    exact .refl c
  · refine ⟨?_, c.length_actions i, c.node?_actions i, ?_⟩
    · rw [actions_reply found pending]
      exact prepared.script
    · rw [actions_reply found pending]
      exact prepared.ledger

theorem actionsAt_keeps (c : Compilation) (schedule : List Nat) :
    Keeps c (c.actionsAt schedule).2 := by
  induction schedule generalizing c with
  | nil => exact .refl c
  | cons place rest ih =>
    cases atPlace : c.script[place]? with
    | none =>
      simp only [actionsAt, atPlace]
      exact ih c
    | some i =>
      simp only [actionsAt, atPlace]
      exact (c.actions_keeps i).trans (ih _)

theorem generateBy_keeps (c : Compilation) (schedule : List Nat) :
    Keeps c (c.generateBy schedule).2 := by
  have logged (c : Compilation) (log : Log) : Keeps c { c with log } := .of_eq rfl rfl rfl
  have prepared := (logged c (c.log.beginPhase "Preparing")).trans
    (.of_progressed (prepareEach_progressed _ c.script))
  cases run : prepareEach { c with log := c.log.beginPhase "Preparing" } c.script with
  | mk result mid =>
    rw [run] at prepared
    cases result with
    | error failure =>
      rw [generateBy_unprepared run]
      exact prepared.trans (logged mid _)
    | ok =>
      rw [generateBy_prepared run]
      exact (prepared.trans (logged mid _)).trans ((actionsAt_keeps _ schedule).trans (logged _ _))

/-- A compilation whose references were not looked at yet. The ledger knows the blocks of the
script, and nothing about them. -/
structure Draft (c : Compilation) : Prop where
  registered : c.Registered
  inside : ∀ i ∈ c.script, i < c.declarations.length
  unlinked : c.ledger.references.edges = []
  growing : c.ledger.carried = none

namespace Draft

theorem new (profile : Profile) (screen : Screen) (constants : List (String × Expr))
    (backend : Backend) : (new profile screen constants backend).Draft where
  registered := ⟨rfl, by simp [Compilation.new]⟩
  inside := by simp [Compilation.new]
  unlinked := rfl
  growing := rfl

theorem keeps (draft : c.Draft) (keeps : Keeps c after) : after.Draft := by
  obtain ⟨uses, prepared, allocations, ledger⟩ := keeps.ledger
  refine ⟨draft.registered.congr keeps.script (by rw [ledger]) keeps.nodes, ?_, ?_, ?_⟩
  · rw [keeps.script, keeps.length]
    exact draft.inside
  · rw [ledger]
    exact draft.unlinked
  · rw [ledger]
    exact draft.growing

theorem make (draft : c.Draft) (d : Declaration) : (c.make d).Draft where
  registered := draft.registered.make draft.inside d
  inside := inside_make draft.inside d
  unlinked := draft.unlinked
  growing := draft.growing

theorem add (draft : c.Draft) (i : Nat) : (c.add i).2.Draft := by
  rcases c.add_eq_self_or i with same | ⟨bound, run⟩
  · rwa [same]
  · have registered := draft.registered.add bound run
    have inside := inside_add draft.inside bound run
    rcases add_cases bound run with ⟨_, added⟩ | ⟨_, _, _, added⟩
    · rw [added] at registered inside ⊢
      exact ⟨registered, inside, draft.unlinked, draft.growing⟩
    · rw [added] at registered inside ⊢
      exact ⟨registered, inside, draft.unlinked, draft.growing⟩

/-- Every operation but two leaves a draft. -/
theorem perform (draft : c.Draft) {operation : Operation} (unlinked : operation ≠ .link)
    (early : operation ≠ .propagate) : (c.perform operation).Draft := by
  cases operation with
  | make d => exact draft.make d
  | add i => exact draft.add i
  | register i =>
    exact draft.keeps (.of_revised (register_revised rfl).1 (c.length_register i))
  | validateOne i =>
    exact draft.keeps (.of_revised (validateOne_revised rfl).1 (c.length_validateOne i))
  | validate =>
    exact draft.keeps (.of_revised (validateEach_revised rfl).1 (c.length_validateEach _))
  | link => exact absurd rfl unlinked
  | use id f => exact draft.keeps (c.use_keeps id f)
  | propagate => exact absurd rfl early
  | prepare i => exact draft.keeps (.of_progressed (c.prepare_progressed i))
  | actions i => exact draft.keeps (c.actions_keeps i)
  | generate schedule => exact draft.keeps (c.generateBy_keeps schedule)
  | equip backend => exact draft.keeps (.of_eq rfl rfl rfl)

theorem performAll (draft : c.Draft) {operations : List Operation} (unlinked : .link ∉ operations)
    (early : .propagate ∉ operations) : (c.performAll operations).Draft := by
  induction operations generalizing c with
  | nil => exact draft
  | cons operation rest ih =>
    obtain ⟨notLink, unlinkedRest⟩ := List.ne_and_not_mem_of_not_mem_cons unlinked
    obtain ⟨notPropagate, earlyRest⟩ := List.ne_and_not_mem_of_not_mem_cons early
    exact ih (draft.perform (Ne.symm notLink) (Ne.symm notPropagate)) unlinkedRest earlyRest

end Draft

end Grf.Compilation
