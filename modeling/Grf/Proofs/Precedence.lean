import Grf.Proofs.Conflicts
import Grf.Proofs.Registration

namespace Grf

/-- The name in a usage of a template. -/
def Sprite.usage? : Sprite → Option Identifier
  | .use template _ _ _ => some template
  | _ => none

namespace Template

/-- The names that the template uses, in the order of its elements. -/
def usages (t : Template) : List Identifier :=
  t.sprites.filterMap Sprite.usage?

/-- What there is to say about a usage that cannot stand: the template uses itself, or one that is
not known. -/
def objection (t : Template) (id : Identifier) : Failure :=
  if id.name = t.name.name then .inScript (.templateLoop t.name.name) t.position
  else .inScript (.unknownTemplate id.name) id.position

end Template

namespace TemplateLibrary

variable {library : TemplateLibrary} {t : Template} {failure : Failure}
  {before after : List Identifier} {id : Identifier}

/-- The usage names the template itself, or one that is not registered. -/
def Offends (library : TemplateLibrary) (t : Template) (id : Identifier) : Prop :=
  id.name = t.name.name ∨ library.find? id.name = none

instance (library : TemplateLibrary) (t : Template) (id : Identifier) :
    Decidable (library.Offends t id) :=
  inferInstanceAs (Decidable (_ ∨ _))

/-- One pass looks for both faults, so what counts is the first usage that has either. -/
theorem usageFailure?_eq (library : TemplateLibrary) (t : Template) (sprites : List Sprite) :
    library.usageFailure? t sprites =
      ((sprites.filterMap Sprite.usage?).find? (library.Offends t ·)).map t.objection := by
  fun_induction usageFailure? library t sprites with
  | case1 => rfl
  | case2 template _ _ _ rest self =>
    have offends : library.Offends t template := Or.inl self
    simp [Sprite.usage?, offends, Template.objection, self]
  | case3 template _ _ _ rest other unknown =>
    have offends : library.Offends t template := Or.inr (Option.isNone_iff_eq_none.mp unknown)
    simp [Sprite.usage?, offends, Template.objection, other]
  | case4 template _ _ _ rest other known ih =>
    have harmless : ¬ library.Offends t template := by
      rintro (self | unknown)
      · exact other self
      · exact known (Option.isNone_iff_eq_none.mpr unknown)
    simp [Sprite.usage?, harmless, ih]
  | case5 sprite rest noUse ih =>
    have unused : sprite.usage? = none := by
      cases sprite with
      | use template args label position => exact absurd rfl (noUse template args label position)
      | real | recolour | foreign => rfl
    rw [List.filterMap_cons, unused, ih]

theorem register_of_find? (found : t.usages.find? (library.Offends t ·) = some id) :
    library.register t = .error (t.objection id) := by
  have failed : library.usageFailure? t t.sprites = some (t.objection id) := by
    rw [usageFailure?_eq, ← Template.usages, found, Option.map_some]
  rw [register, failed]

theorem register_offended (split : t.usages = before ++ id :: after)
    (harmless : ∀ u ∈ before, ¬ library.Offends t u) (offends : library.Offends t id) :
    library.register t = .error (t.objection id) := by
  refine register_of_find? (List.find?_eq_some_iff_append.mpr ?_)
  exact ⟨by simpa using offends, before, after, split, by simpa using harmless⟩

/-- Either no usage is at fault, or there is a first one. -/
theorem harmless_or_offended (library : TemplateLibrary) (t : Template) :
    (∀ u ∈ t.usages, ¬ library.Offends t u) ∨ ∃ before id after,
      t.usages = before ++ id :: after ∧ (∀ u ∈ before, ¬ library.Offends t u) ∧
        library.Offends t id := by
  cases found : t.usages.find? (library.Offends t ·) with
  | none => exact Or.inl (by simpa using List.find?_eq_none.mp found)
  | some id =>
    obtain ⟨offends, before, after, split, harmless⟩ := List.find?_eq_some_iff_append.mp found
    exact Or.inr ⟨before, id, after, split, by simpa using harmless, by simpa using offends⟩

/-- Why a template is refused, the rules being ranked: a template that uses itself, a usage of an
unknown template, a name that is taken, labels that cannot be resolved. A rule counts only if none
of higher rank is broken. -/
inductive Refuses (library : TemplateLibrary) (t : Template) : Failure → Prop
  | self : (∃ u ∈ t.usages, u.name = t.name.name) →
      Refuses library t (.inScript (.templateLoop t.name.name) t.position)
  | unknown {early missing late} : (∀ u ∈ t.usages, u.name ≠ t.name.name) →
      t.usages = early ++ missing :: late → (∀ u ∈ early, library.find? u.name ≠ none) →
      library.find? missing.name = none →
      Refuses library t (.inScript (.unknownTemplate missing.name) missing.position)
  | taken {first contents} : (∀ u ∈ t.usages, ¬ library.Offends t u) →
      library.find? t.name.name = some (first, contents) →
      Refuses library t
        (.redefinition (.templateTaken t.name.name first.position) t.position first.position)
  | labels {reason} : (∀ u ∈ t.usages, ¬ library.Offends t u) →
      library.find? t.name.name = none → library.resolve t.sprites = .error reason →
      Refuses library t reason

/-- A usage of an unknown template stands before the first one of the template itself. -/
def Preempts (library : TemplateLibrary) (t : Template) : Prop :=
  ∃ before id after, t.usages = before ++ id :: after ∧ (∀ u ∈ before, u.name ≠ t.name.name) ∧
    id.name ≠ t.name.name ∧ library.find? id.name = none ∧ ∃ u ∈ after, u.name = t.name.name

theorem refuses_self (self : ∃ u ∈ t.usages, u.name = t.name.name) :
    library.Refuses t failure ↔
      failure = .inScript (.templateLoop t.name.name) t.position := by
  obtain ⟨u, member, same⟩ := self
  constructor
  · intro refuses
    cases refuses with
    | self => rfl
    | unknown other => exact absurd same (other u member)
    | taken harmless | labels harmless => exact absurd (Or.inl same) (harmless u member)
  · rintro rfl
    exact .self ⟨u, member, same⟩

theorem refuses_unknown (other : ∀ u ∈ t.usages, u.name ≠ t.name.name)
    (split : t.usages = before ++ id :: after) (known : ∀ u ∈ before, library.find? u.name ≠ none)
    (unknown : library.find? id.name = none) :
    library.Refuses t failure ↔ failure = .inScript (.unknownTemplate id.name) id.position := by
  have first {left right : List Identifier} {u : Identifier}
      (splitAt : t.usages = left ++ u :: right)
      (early : ∀ x ∈ left, library.find? x.name ≠ none) (missing : library.find? u.name = none) :
      t.usages.find? (fun x => (library.find? x.name).isNone) = some u := by
    refine List.find?_eq_some_iff_append.mpr ⟨by simp [missing], left, right, splitAt, ?_⟩
    simpa [Option.isSome_iff_ne_none] using early
  have member : id ∈ t.usages := by
    rw [split]
    exact List.mem_append_cons_self
  constructor
  · intro refuses
    cases refuses with
    | self uses =>
      obtain ⟨u, inside, same⟩ := uses
      exact absurd same (other u inside)
    | unknown _ splitAt early missing =>
      have same := (first splitAt early missing).symm.trans (first split known unknown)
      cases same
      rfl
    | taken harmless | labels harmless => exact absurd (Or.inr unknown) (harmless id member)
  · rintro rfl
    exact .unknown other split known unknown

theorem refuses_harmless (harmless : ∀ u ∈ t.usages, ¬ library.Offends t u) :
    library.register t = .error failure ↔ library.Refuses t failure := by
  have passed : library.usageFailure? t t.sprites = none := by
    rw [usageFailure?_eq, ← Template.usages, Option.map_eq_none_iff]
    exact List.find?_eq_none.mpr (by simpa using harmless)
  rw [register, passed]
  constructor
  · intro failed
    dsimp only at failed
    split at failed
    · rename_i found
      cases failed
      exact .taken harmless found
    · rename_i free
      split at failed
      · rename_i refused
        cases failed
        exact .labels harmless free refused
      · cases failed
  · intro refuses
    cases refuses with
    | self uses =>
      obtain ⟨u, inside, same⟩ := uses
      exact absurd (Or.inl same) (harmless u inside)
    | @unknown _ id _ _ split _ unknown =>
      refine absurd (Or.inr unknown) (harmless id ?_)
      rw [split]
      exact List.mem_append_cons_self
    | taken _ found => rw [found]
    | labels _ free refused => rw [free, refused]

/-- With all usages known, what is left to go wrong is a label or an element of another kind. -/
theorem resolve_error_known (known : ∀ u ∈ t.usages, library.find? u.name ≠ none)
    (failed : library.resolve t.sprites = .error failure) :
    failure.kind? ≠ some .unknownReference := by
  obtain ⟨done, s, rest, mid, split, _, reason⟩ := resolveAfter_error failed
  have inside : s ∈ t.sprites := by
    rw [split]
    exact List.mem_append_cons_self
  rcases reason with refused | ⟨part, _, clash⟩
  · cases s with
    | real labels params position | recolour labels params position =>
      simp only [resolveSprite] at refused
      split at refused
      · rename_i reason repeated
        cases refused
        obtain ⟨_, _, _, _, _, _, _, _, _, rfl⟩ := LabelTable.ofIdentifiers_error repeated
        simp [Cause.kind]
      · cases refused
    | use template args label position =>
      have used : template ∈ t.usages := List.mem_filterMap.mpr ⟨_, inside, rfl⟩
      simp only [resolveSprite] at refused
      split at refused
      · rename_i missing
        exact absurd missing (known template used)
      · cases label with
        | none => cases refused
        | some id =>
          dsimp only at refused
          split at refused
          · rename_i reason taken
            cases refused
            obtain ⟨_, _, _, rfl⟩ := LabelTable.add_error taken
            simp [Cause.kind]
          · cases refused
    | foreign source position =>
      cases refused
      simp [Cause.kind]
  · obtain ⟨_, _, _, _, _, rfl⟩ := LabelTable.merge_error clash
    simp [Cause.kind]

/-- The first usage at fault is the unknown one or stands before it, and is not one of the template
itself. -/
theorem Preempts.register (preempts : library.Preempts t) :
    ∃ id, id.name ≠ t.name.name ∧ library.register t = .error (t.objection id) := by
  obtain ⟨before, id, after, split, others, other, unknown, _⟩ := preempts
  have offends : library.Offends t id := Or.inr unknown
  have found : t.usages.find? (library.Offends t ·) =
      (before.find? (library.Offends t ·)).or (some id) := by
    rw [split, List.find?_append, List.find?_cons_of_pos (by simpa using offends)]
  cases early : before.find? (library.Offends t ·) with
  | none =>
    rw [early, Option.none_or] at found
    exact ⟨id, other, register_of_find? found⟩
  | some u =>
    rw [early, Option.some_or] at found
    exact ⟨u, others u (List.mem_of_find?_eq_some early), register_of_find? found⟩

/-- The usage that comes first decides, and not the rule of higher rank. So the ranks are kept except
where a usage of an unknown template stands before that of the template itself. -/
theorem register_ranked (library : TemplateLibrary) (t : Template) :
    ((∀ failure, library.register t = .error failure ↔ library.Refuses t failure) ↔
      ¬ library.Preempts t) ∧
    (∀ before id after, t.usages = before ++ id :: after →
      (∀ u ∈ before, ¬ library.Offends t u) → library.Offends t id →
      library.register t = .error (t.objection id)) ∧
    ∀ failure, (∀ u ∈ t.usages, library.find? u.name ≠ none) →
      library.resolve t.sprites = .error failure → failure.kind? ≠ some .unknownReference := by
  refine ⟨⟨?_, ?_⟩, fun _ _ _ => register_offended, fun _ => resolve_error_known⟩
  · intro agree preempts
    obtain ⟨id, other, run⟩ := preempts.register
    obtain ⟨before, _, after, split, _, _, _, u, late, same⟩ := preempts
    have member : u ∈ t.usages := by
      rw [split]
      exact List.mem_append_right _ (List.mem_cons_of_mem _ late)
    have ranked := (agree _).mpr (.self ⟨u, member, same⟩)
    rw [run, Template.objection, if_neg other] at ranked
    have kinds := congrArg Failure.kind? (Except.error.inj ranked)
    cases kinds
  · intro orderly failure
    rcases library.harmless_or_offended t with harmless | ⟨before, id, after, split, harmless, offends⟩
    · exact refuses_harmless harmless
    · have member : id ∈ t.usages := by
        rw [split]
        exact List.mem_append_cons_self
      rw [register_offended split harmless offends, Except.error.injEq, eq_comm]
      by_cases same : id.name = t.name.name
      · rw [refuses_self ⟨id, member, same⟩, Template.objection, if_pos same]
      · have unknown := offends.resolve_left same
        have earlier : ∀ u ∈ before, u.name ≠ t.name.name :=
          fun u inside self => harmless u inside (Or.inl self)
        have others : ∀ u ∈ t.usages, u.name ≠ t.name.name := by
          rw [split]
          refine List.forall_mem_append.mpr ⟨earlier, List.forall_mem_cons.mpr ⟨same, ?_⟩⟩
          intro u late self
          exact orderly ⟨before, id, after, split, earlier, same, unknown, u, late, self⟩
        rw [refuses_unknown others split (fun u inside missing => harmless u inside (Or.inr missing))
          unknown, Template.objection, if_neg same]

/-- A template that uses one that is missing and then itself. -/
def spiral : Template :=
  ⟨⟨"t", some (.ofLine "a.nml" 1 9 1)⟩, [],
    [.use ⟨"missing", some (.ofLine "a.nml" 2 4 7)⟩ [] none none,
      .use ⟨"t", some (.ofLine "a.nml" 3 4 1)⟩ [] none none],
    some (.ofLine "a.nml" 1 0 8)⟩

/-- The spiral is refused for the missing template, although it uses itself. -/
theorem register_ranked_spiral :
    Refuses {} spiral (.inScript (.templateLoop "t") (some (.ofLine "a.nml" 1 0 8))) ∧
      register {} spiral =
        .error (.inScript (.unknownTemplate "missing") (some (.ofLine "a.nml" 2 4 7))) :=
  ⟨.self ⟨⟨"t", some (.ofLine "a.nml" 3 4 1)⟩, by decide, rfl⟩, rfl⟩

end TemplateLibrary

end Grf
