import Grf.Proofs.Validation

namespace Grf

/-- The block after its validation, unless that fails. -/
def Block.revise (library : TemplateLibrary) (scope : Scope) : Block → Except Failure Block
  | set s =>
    match s.validate library with
    | .error failure => .error failure
    | .ok s => .ok (set s)
  | group g =>
    match g.validate scope with
    | (.error failure, _) => .error failure
    | (.ok _, g) => .ok (group g)
  | layout l => .ok (layout (l.validate scope))

namespace Compilation

variable {a b c mid after : Compilation} {i : Nat} {is js : List Nat} {d e : Block}

theorem declarations_update (found : c.block? i = some d) (e : Declaration) (j : Nat) :
    (c.update i e).declarations[j]? = if j = i then some e else c.declarations[j]? := by
  obtain ⟨inside, _⟩ := List.getElem?_eq_some_iff.mp (block?_eq_some.mp found)
  by_cases same : j = i
  · subst same
    simp [update, inside]
  · simp [update, List.getElem?_set_ne (Ne.symm same), same]

/-- The blocks `is` have passed their validation, and no other declaration has changed. -/
structure Reviewed (c : Compilation) (is : List Nat) (after : Compilation) : Prop where
  library : after.library = c.library
  scope : after.scope = c.scope
  passed : ∀ i ∈ is, ∃ d e, c.block? i = some d ∧ d.revise c.library c.scope = .ok e ∧
    after.block? i = some e
  others : ∀ i ∉ is, after.declarations[i]? = c.declarations[i]?

theorem Reviewed.block?_of_not_mem (reviewed : Reviewed c is after) (other : i ∉ is) :
    after.block? i = c.block? i := by
  unfold block?
  rw [reviewed.others i other]

theorem Reviewed.cons (first : Reviewed c [i] mid) (second : Reviewed mid is after)
    (apart : i ∉ is) : Reviewed c (i :: is) after where
  library := second.library.trans first.library
  scope := second.scope.trans first.scope
  passed := by
    refine List.forall_mem_cons.mpr ⟨?_, ?_⟩
    · obtain ⟨d, e, found, revised, moved⟩ := first.passed i List.mem_cons_self
      exact ⟨d, e, found, revised, (second.block?_of_not_mem apart).trans moved⟩
    · intro j member
      have different : j ∉ [i] := by
        rintro same
        cases List.mem_singleton.mp same
        exact apart member
      obtain ⟨d, e, found, revised, moved⟩ := second.passed j member
      rw [first.block?_of_not_mem different] at found
      rw [first.library, first.scope] at revised
      exact ⟨d, e, found, revised, moved⟩
  others := by
    intro j other
    obtain ⟨different, notLater⟩ := not_or.mp (List.mem_cons.not.mp other)
    exact (second.others j notLater).trans (first.others j (by simpa using different))

theorem reviewed_update (found : c.block? i = some d)
    (revised : d.revise c.library c.scope = .ok e) (log : Log) :
    Reviewed c [i] ({ c with log }.update i (.block e)) where
  library := rfl
  scope := rfl
  passed := by
    intro j member
    cases List.mem_singleton.mp member
    refine ⟨d, e, found, revised, ?_⟩
    exact (block?_update (c := { c with log }) found e i).trans (if_pos rfl)
  others := by
    intro j other
    exact (declarations_update (c := { c with log }) found (.block e) j).trans
      (if_neg (by simpa using other))

/-- A block is validated without failure if and only if its revision succeeds. -/
theorem validateOne_block (found : c.block? i = some d) :
    (∃ e, d.revise c.library c.scope = .ok e ∧
        ∃ log, c.validateOne i = (.ok (), { c with log }.update i (.block e))) ∨
      ∃ failure, d.revise c.library c.scope = .error failure ∧
        (c.validateOne i).1 = .error failure := by
  have atI := block?_eq_some.mp found
  cases d with
  | set s =>
    cases result : s.validate c.library with
    | error failure =>
      exact Or.inr ⟨failure, by simp only [Block.revise, result],
        by simp only [validateOne, atI, result]⟩
    | ok validated =>
      exact Or.inl ⟨.set validated, by simp only [Block.revise, result], c.log,
        by simp only [validateOne, atI, result]⟩
  | group g =>
    cases result : g.validate c.scope with
    | mk passed validated =>
      cases passed with
      | error failure =>
        exact Or.inr ⟨failure, by simp only [Block.revise, result],
          by simp only [validateOne, atI, result]⟩
      | ok =>
        exact Or.inl ⟨.group validated, by simp only [Block.revise, result], c.log,
          by simp only [validateOne, atI, result]⟩
  | layout l => exact Or.inl ⟨_, rfl, _, by simp only [validateOne, atI]; rfl⟩

theorem validateOne_reviewed (found : c.block? i = some d)
    (run : c.validateOne i = (.ok (), after)) : Reviewed c [i] after := by
  obtain ⟨e, revised, log, passed⟩ | ⟨failure, _, failed⟩ := validateOne_block found
  · cases passed.symm.trans run
    exact reviewed_update found revised log
  · rw [run] at failed
    cases failed

theorem validateOne_passes (found : c.block? i = some d)
    (revised : d.revise c.library c.scope = .ok e) :
    ∃ after, c.validateOne i = (.ok (), after) := by
  obtain ⟨_, _, log, passed⟩ | ⟨failure, failed, _⟩ := validateOne_block found
  · exact ⟨_, passed⟩
  · cases failed.symm.trans revised

theorem validateEach_reviewed (distinct : is.Nodup) (blocks : ∀ i ∈ is, ∃ d, c.block? i = some d)
    (run : c.validateEach is = (.ok (), after)) : Reviewed c is after := by
  induction is generalizing c with
  | nil =>
    cases run
    exact ⟨rfl, rfl, by simp, fun _ _ => rfl⟩
  | cons i rest ih =>
    obtain ⟨apart, distinctRest⟩ := List.nodup_cons.mp distinct
    obtain ⟨⟨d, found⟩, later⟩ := List.forall_mem_cons.mp blocks
    unfold validateEach at run
    split at run
    · cases run
    · rename_i mid passed
      have first := validateOne_reviewed found passed
      refine first.cons (ih distinctRest ?_ run) apart
      intro j member
      rw [first.block?_of_not_mem]
      · exact later j member
      · exact fun same => apart (List.mem_singleton.mp same ▸ member)

/-- Blocks do not stand in each other's way: each one is judged as it was at the start. -/
theorem validateEach_passes (distinct : is.Nodup)
    (revised : ∀ i ∈ is, ∃ d e, c.block? i = some d ∧ d.revise c.library c.scope = .ok e) :
    ∃ after, c.validateEach is = (.ok (), after) := by
  induction is generalizing c with
  | nil => exact ⟨c, rfl⟩
  | cons i rest ih =>
    obtain ⟨apart, distinctRest⟩ := List.nodup_cons.mp distinct
    obtain ⟨⟨d, e, found, passes⟩, later⟩ := List.forall_mem_cons.mp revised
    obtain ⟨mid, passed⟩ := validateOne_passes found passes
    have first := validateOne_reviewed found passed
    rw [validateEach, passed]
    refine ih distinctRest ?_
    intro j member
    rw [first.block?_of_not_mem, first.library, first.scope]
    · exact later j member
    · exact fun same => apart (List.mem_singleton.mp same ▸ member)

/-- All that validation reads is the same. -/
structure Alike (a b : Compilation) : Prop where
  declarations : b.declarations = a.declarations
  library : b.library = a.library
  scope : b.scope = a.scope

theorem Alike.update (alike : Alike a b) (i : Nat) (d : Declaration) :
    Alike (a.update i d) (b.update i d) :=
  ⟨congrArg (List.set · i d) alike.declarations, alike.library, alike.scope⟩

theorem Alike.register (alike : Alike a b) (i : Nat) :
    (b.register i).1 = (a.register i).1 ∧ Alike (a.register i).2 (b.register i).2 := by
  unfold Compilation.register
  rw [alike.declarations, alike.library]
  split
  · split
    · exact ⟨rfl, alike⟩
    · exact ⟨rfl, rfl, rfl, alike.scope⟩
  · exact ⟨rfl, alike⟩

theorem Alike.validateOne (alike : Alike a b) (i : Nat) :
    (b.validateOne i).1 = (a.validateOne i).1 ∧ Alike (a.validateOne i).2 (b.validateOne i).2 := by
  unfold Compilation.validateOne
  rw [alike.declarations, alike.library, alike.scope]
  split
  · exact ⟨rfl, alike⟩
  · exact alike.register i
  · split
    · exact ⟨rfl, alike⟩
    · exact ⟨rfl, alike.update i _⟩
  · exact ⟨rfl, alike.update i _⟩
  · exact ⟨rfl, rfl, rfl, alike.scope⟩

theorem Alike.validateEach (alike : Alike a b) (is : List Nat) :
    (b.validateEach is).1 = (a.validateEach is).1 ∧
      Alike (a.validateEach is).2 (b.validateEach is).2 := by
  induction is generalizing a b with
  | nil => exact ⟨rfl, alike⟩
  | cons i rest ih =>
    obtain ⟨same, alikeAfter⟩ := alike.validateOne i
    unfold Compilation.validateEach
    cases first : a.validateOne i with
    | mk result afterA =>
      cases second : b.validateOne i with
      | mk resultB afterB =>
        rw [first, second] at same alikeAfter
        cases same
        cases result with
        | error failure => exact ⟨rfl, alikeAfter⟩
        | ok => exact ih alikeAfter

/-- Reviews of the same blocks, in any order, have the same outcome. -/
theorem Reviewed.alike {afterA afterB : Compilation} (alike : Alike a b)
    (same : ∀ i, i ∈ is ↔ i ∈ js) (first : Reviewed a is afterA) (second : Reviewed b js afterB) :
    Alike afterA afterB where
  declarations := by
    refine List.ext_getElem? fun i => ?_
    by_cases member : i ∈ is
    · obtain ⟨d, e, found, revised, moved⟩ := first.passed i member
      obtain ⟨d', e', found', revised', moved'⟩ := second.passed i ((same i).mp member)
      rw [block?_congr alike.declarations, found] at found'
      cases found'
      rw [alike.library, alike.scope, revised] at revised'
      cases revised'
      rw [block?_eq_some.mp moved, block?_eq_some.mp moved']
    · rw [first.others i member, second.others i ((same i).not.mp member), alike.declarations]
  library := by rw [first.library, second.library, alike.library]
  scope := by rw [first.scope, second.scope, alike.scope]

theorem validateEach_append_ok {rest : List Nat} :
    c.validateEach (is ++ rest) = (.ok (), after) ↔
      ∃ mid, c.validateEach is = (.ok (), mid) ∧ mid.validateEach rest = (.ok (), after) := by
  induction is generalizing c with
  | nil => simp [validateEach]
  | cons i is ih =>
    rw [List.cons_append, validateEach, validateEach]
    split
    · simp
    · exact ih

/-- Blocks that are validated after the same templates may change their order. -/
theorem Alike.validateEach_perm {templates : List Nat} {afterA : Compilation} (alike : Alike a b)
    (distinct : is.Nodup) (blocks : ∀ i ∈ is, ∃ d, a.block? i = some d) (perm : is.Perm js)
    (run : a.validateEach (templates ++ is) = (.ok (), afterA)) :
    ∃ afterB, b.validateEach (templates ++ js) = (.ok (), afterB) ∧ Alike afterA afterB := by
  obtain ⟨midA, registered, run⟩ := validateEach_append_ok.mp run
  obtain ⟨same, alikeMid⟩ := alike.validateEach templates
  have blocksMid : ∀ i ∈ is, ∃ d, midA.block? i = some d := by
    intro i member
    obtain ⟨d, found⟩ := blocks i member
    have kept := ((validateEach_revised registered).1.nodes i).trans (node?_of_block? found)
    obtain ⟨e, atI, _⟩ := node?_eq_some.mp kept
    exact ⟨e, atI⟩
  rw [registered] at same alikeMid
  obtain ⟨midB, registeredB⟩ : ∃ midB, b.validateEach templates = (.ok (), midB) :=
    ⟨(b.validateEach templates).2, Prod.ext same rfl⟩
  rw [registeredB] at alikeMid
  have reviewed := validateEach_reviewed distinct blocksMid run
  have revised : ∀ i ∈ js, ∃ d e, midB.block? i = some d ∧
      d.revise midB.library midB.scope = .ok e := by
    intro i member
    obtain ⟨d, e, found, passes, _⟩ := reviewed.passed i (perm.mem_iff.mpr member)
    rw [block?_congr alikeMid.declarations, alikeMid.library, alikeMid.scope]
    exact ⟨d, e, found, passes⟩
  have distinctB := perm.nodup_iff.mp distinct
  obtain ⟨afterB, passed⟩ := validateEach_passes distinctB revised
  have reviewedB := validateEach_reviewed distinctB
    (fun i member => (revised i member).imp fun _ ⟨_, found, _⟩ => found) passed
  refine ⟨afterB, validateEach_append_ok.mpr ⟨midB, registeredB, passed⟩, ?_⟩
  exact reviewed.alike alikeMid (fun _ => perm.mem_iff) reviewedB

end Compilation

end Grf
