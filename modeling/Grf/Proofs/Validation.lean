import Grf.Compilation.Validation
import Grf.Proofs.Names

namespace Grf

theorem Lifecycle.validate_stage (e : Lifecycle) : e.validate.stage ≠ .unvalidated := by
  unfold validate
  split
  · exact fun same => by cases same
  · assumption

theorem Lifecycle.validate_outcome (e : Lifecycle) : e.validate.outcome = e.outcome := by
  unfold validate
  split <;> rfl

theorem Lifecycle.validate_validate (e : Lifecycle) : e.validate.validate = e.validate := by
  rw [validate, if_neg e.validate_stage]

/-- Validating a group keeps its name, and moves its lifecycle only on success. -/
theorem SpriteGroup.validate_cases (g : SpriteGroup) (scope : Scope) :
    (g.validate scope).2.name = g.name ∧
      ((g.validate scope).1 = .ok () ∧ (g.validate scope).2.lifecycle = g.lifecycle.validate ∨
        (∃ failure, (g.validate scope).1 = .error failure) ∧
          (g.validate scope).2.lifecycle = g.lifecycle) := by
  unfold validate
  split
  · exact ⟨rfl, Or.inr ⟨⟨_, rfl⟩, rfl⟩⟩
  · split
    · exact ⟨rfl, Or.inr ⟨⟨_, rfl⟩, rfl⟩⟩
    · exact ⟨rfl, Or.inl ⟨rfl, rfl⟩⟩

theorem SpriteSet.validate_ok {s after : SpriteSet} {library : TemplateLibrary}
    (run : s.validate library = .ok after) :
    after.name = s.name ∧ after.lifecycle = s.lifecycle.validate := by
  unfold validate at run
  split at run
  · cases run
  · cases run
    exact ⟨rfl, rfl⟩

namespace Compilation

theorem block?_updateTemplate {c : Compilation} {i : Nat} {t : Template}
    {before : Option Resolved} (found : c.declarations[i]? = some (.template t before))
    (u : Template) (contents : Option Resolved) (j : Nat) :
    (c.update i (.template u contents)).block? j = c.block? j := by
  by_cases same : j = i
  · subst same
    have noBlock : c.block? j = none := by simp [block?, found]
    obtain ⟨inside, _⟩ := List.getElem?_eq_some_iff.mp found
    rw [noBlock]
    simp [block?, update, inside]
  · simp [block?, update, List.getElem?_set_ne (Ne.symm same)]

/-- What validation leaves as it is. A block may be validated, but keeps its node in the ledger and
is not asked for actions. -/
structure Revised (c after : Compilation) : Prop where
  ledger : after.ledger = c.ledger
  script : after.script = c.script
  backend : after.backend = c.backend
  calls : after.calls = c.calls
  nodes : ∀ i, after.node? i = c.node? i
  blocks : ∀ i b, after.block? i = some b → ∃ a, c.block? i = some a ∧
    (b.lifecycle = a.lifecycle ∨ b.lifecycle = a.lifecycle.validate)

namespace Revised

variable {c mid after : Compilation} {i : Nat} {a b : Block}

theorem refl (c : Compilation) : Revised c c :=
  ⟨rfl, rfl, rfl, rfl, fun _ => rfl, fun _ b found => ⟨b, found, Or.inl rfl⟩⟩

theorem trans (first : Revised c mid) (second : Revised mid after) : Revised c after where
  ledger := second.ledger.trans first.ledger
  script := second.script.trans first.script
  backend := second.backend.trans first.backend
  calls := second.calls.trans first.calls
  nodes i := (second.nodes i).trans (first.nodes i)
  blocks := by
    intro i b found
    obtain ⟨m, atMid, later⟩ := second.blocks i b found
    obtain ⟨a, atStart, earlier⟩ := first.blocks i m atMid
    refine ⟨a, atStart, ?_⟩
    rcases later with same | moved
    · rwa [same]
    · rcases earlier with unmoved | validated
      · exact Or.inr (by rw [moved, unmoved])
      · exact Or.inr (by rw [moved, validated, Lifecycle.validate_validate])

theorem update (found : c.block? i = some a) (node : b.node i = a.node i)
    (lifecycle : b.lifecycle = a.lifecycle ∨ b.lifecycle = a.lifecycle.validate) :
    Revised c (c.update i (.block b)) where
  ledger := rfl
  script := rfl
  backend := rfl
  calls := rfl
  nodes := node?_update found node
  blocks := by
    intro j other atJ
    rw [block?_update found] at atJ
    split at atJ
    · rename_i same
      subst same
      cases atJ
      exact ⟨a, found, lifecycle⟩
    · exact ⟨other, atJ, Or.inl rfl⟩

/-- Changes that no block takes part in. -/
theorem of_blocks_eq (ledger : after.ledger = c.ledger) (script : after.script = c.script)
    (backend : after.backend = c.backend) (calls : after.calls = c.calls)
    (blocks : ∀ j, after.block? j = c.block? j) : Revised c after where
  ledger := ledger
  script := script
  backend := backend
  calls := calls
  nodes j := congrArg _ (blocks j)
  blocks := by
    intro j b found
    rw [blocks] at found
    exact ⟨b, found, Or.inl rfl⟩

theorem stage (revised : Revised c after)
    (validated : ∀ a, c.block? i = some a → a.lifecycle.stage ≠ .unvalidated)
    (found : after.block? i = some b) : b.lifecycle.stage ≠ .unvalidated := by
  obtain ⟨a, atStart, same | moved⟩ := revised.blocks i b found
  · rw [same]
    exact validated a atStart
  · rw [moved]
    exact a.lifecycle.validate_stage

theorem outcome (revised : Revised c after)
    (unrequested : ∀ a, c.block? i = some a → a.lifecycle.outcome = none)
    (found : after.block? i = some b) : b.lifecycle.outcome = none := by
  obtain ⟨a, atStart, same | moved⟩ := revised.blocks i b found
  · rw [same]
    exact unrequested a atStart
  · rw [moved, Lifecycle.validate_outcome]
    exact unrequested a atStart

end Revised

theorem register_revised {c after : Compilation} {i : Nat} {result : Except Failure Unit}
    (run : c.register i = (result, after)) :
    Revised c after ∧ ∀ j, after.block? j = c.block? j := by
  unfold register at run
  split at run
  · rename_i t before found
    split at run
    · cases run
      exact ⟨.refl c, fun _ => rfl⟩
    · cases run
      have blocks := block?_updateTemplate found
      exact ⟨.of_blocks_eq rfl rfl rfl rfl (blocks t _), blocks t _⟩
  · cases run
    exact ⟨.refl c, fun _ => rfl⟩

/-- A declaration that passes validation is validated afterwards. -/
theorem validateOne_revised {c after : Compilation} {i : Nat} {result : Except Failure Unit}
    (run : c.validateOne i = (result, after)) :
    Revised c after ∧ (result = .ok () →
      ∀ b, after.block? i = some b → b.lifecycle.stage ≠ .unvalidated) := by
  have replaced {a b : Block} (found : c.block? i = some a)
      (moved : b.lifecycle = a.lifecycle.validate) :
      ∀ d, (c.update i (.block b)).block? i = some d → d.lifecycle.stage ≠ .unvalidated := by
    intro d atI
    rw [block?_update found, if_pos rfl, Option.some.injEq] at atI
    rw [← atI, moved]
    exact a.lifecycle.validate_stage
  unfold validateOne at run
  split at run
  · rename_i missing
    cases run
    exact ⟨.refl c, by simp [block?, missing]⟩
  · rename_i t before found
    obtain ⟨revised, blocks⟩ := register_revised run
    refine ⟨revised, ?_⟩
    intro _ b atI
    rw [blocks, block?_eq_some, found] at atI
    cases atI
  · rename_i s found
    have atI := block?_eq_some.mpr found
    split at run
    · cases run
      exact ⟨.refl c, by simp⟩
    · rename_i validated passed
      cases run
      obtain ⟨name, moved⟩ := SpriteSet.validate_ok passed
      have node : (Block.set validated).node i = (Block.set s).node i := by
        simp only [Block.node, Block.name, Block.kind, Block.allocates, name]
      exact ⟨.update atI node (Or.inr moved), fun _ => replaced atI moved⟩
  · rename_i g found
    have atI := block?_eq_some.mpr found
    cases run
    obtain ⟨name, lifecycle⟩ := g.validate_cases c.scope
    have node : (Block.group (g.validate c.scope).2).node i = (Block.group g).node i := by
      simp only [Block.node, Block.name, Block.kind, Block.allocates, name]
    rcases lifecycle with ⟨_, moved⟩ | ⟨⟨failure, failed⟩, same⟩
    · exact ⟨.update atI node (Or.inr moved), fun _ => replaced atI moved⟩
    · exact ⟨.update atI node (Or.inl same), fun passed => nomatch failed.symm.trans passed⟩
  · rename_i l found
    have atI := block?_eq_some.mpr found
    cases run
    refine ⟨?_, fun _ => replaced atI rfl⟩
    have revised : Revised c (c.update i (.block (.layout (l.validate c.scope)))) :=
      .update atI rfl (Or.inr rfl)
    exact ⟨rfl, rfl, rfl, rfl, revised.nodes, revised.blocks⟩

theorem validateEach_revised {c after : Compilation} {is : List Nat} {result : Except Failure Unit}
    (run : c.validateEach is = (result, after)) :
    Revised c after ∧ (result = .ok () →
      ∀ i ∈ is, ∀ b, after.block? i = some b → b.lifecycle.stage ≠ .unvalidated) := by
  induction is generalizing c with
  | nil =>
    cases run
    exact ⟨.refl _, by simp⟩
  | cons i rest ih =>
    unfold validateEach at run
    split at run
    · rename_i failure mid first
      cases run
      exact ⟨(validateOne_revised first).1, by simp⟩
    · rename_i mid first
      obtain ⟨revised, validated⟩ := validateOne_revised first
      obtain ⟨revisedRest, validatedRest⟩ := ih run
      refine ⟨revised.trans revisedRest, fun passed => List.forall_mem_cons.mpr ⟨?_, ?_⟩⟩
      · exact fun b found => revisedRest.stage (validated rfl) found
      · exact validatedRest passed

end Compilation

end Grf
