import Grf.Proofs.Expansion
import Grf.Proofs.LabelTables
import Mathlib.Data.List.Nodup
import Mathlib.Logic.ExistsUnique

namespace Grf

/-- Labels and count agree with an expansion, as words. -/
structure Resolved.Matches (r : Resolved) (e : Expansion) : Prop where
  labels : r.labels.labels.Perm (e.marks.map Mark.toLabel)
  count : r.count = Int64.ofNat e.sprites.length

namespace Resolved.Matches

theorem empty : Matches {} {} :=
  ⟨List.Perm.refl _, rfl⟩

theorem names_nodup {r : Resolved} {e : Expansion} (agree : r.Matches e) : e.names.Nodup := by
  rw [← e.names_toLabel]
  exact (agree.labels.map Label.name).nodup_iff.mp r.labels.distinct

/-- Shifting the labels of a part past the sprites before it. -/
theorem merged_perm {done part : Resolved} {d e : Expansion} (agree : done.Matches d)
    (agreePart : part.Matches e) :
    (done.labels.labels ++ part.labels.ordered.map (·.shift done.count)).Perm
      ((d.append e).marks.map Mark.toLabel) := by
  have shifted : (e.marks.map Mark.toLabel).map (·.shift done.count) =
      (e.marks.map (·.after d.sprites.length)).map Mark.toLabel := by
    simp only [agree.count, List.map_map, Function.comp_def, Mark.shift_toLabel]
  rw [Expansion.append, List.map_append, ← shifted]
  exact agree.labels.append ((part.labels.ordered_perm.trans agreePart.labels).map _)

theorem merge {done part : Resolved} {d e : Expansion} {table : LabelTable}
    (agree : done.Matches d) (agreePart : part.Matches e)
    (merged : done.labels.merge part.labels done.count = .ok table) :
    Matches ⟨table, done.count + part.count⟩ (d.append e) := by
  refine ⟨?_, ?_⟩
  · rw [LabelTable.merge_eq_ok.mp merged]
    exact agree.merged_perm agreePart
  · simp only [agree.count, agreePart.count, Expansion.append, List.length_append,
      Int64.ofNat_add]

theorem exists_merge {done part : Resolved} {d e : Expansion} (agree : done.Matches d)
    (agreePart : part.Matches e) (distinct : (d.append e).names.Nodup) :
    ∃ table, done.labels.merge part.labels done.count = .ok table := by
  rw [← Expansion.names_toLabel] at distinct
  have perm := (agree.merged_perm agreePart).map Label.name
  exact ⟨⟨_, perm.nodup_iff.mpr distinct⟩, LabelTable.merge_eq_ok.mpr rfl⟩

end Resolved.Matches

namespace TemplateLibrary

/-- What is kept with each template agrees with the expansion of its sprites. -/
def Sound (library : TemplateLibrary) : Prop :=
  ∀ name t contents, library.find? name = some (t, contents) →
    ∃ e, library.Expands t.sprites e ∧ contents.Matches e

variable {library : TemplateLibrary}

theorem single_matches {s : Sprite} {labels : List Identifier} {table : LabelTable}
    (made : LabelTable.ofIdentifiers labels = .ok table) :
    Resolved.Matches ⟨table, 1⟩ (Expansion.single s labels) := by
  refine ⟨?_, rfl⟩
  rw [LabelTable.ofIdentifiers_eq_ok.mp made, Expansion.single, List.map_map]
  exact List.Perm.refl _

theorem labelled_matches {contents : Resolved} {e : Expansion} {id : Identifier}
    {table : LabelTable} (agree : contents.Matches e)
    (added : contents.labels.add ⟨id.name, 0, id.position⟩ = .ok table) :
    Resolved.Matches ⟨table, contents.count⟩ (e.labelled (some id)) := by
  refine ⟨?_, agree.count⟩
  rw [LabelTable.add_eq_ok.mp added]
  exact (List.perm_append_singleton _ _).trans (agree.labels.cons _)

/-- An element that is resolved agrees with its expansion. -/
theorem resolveSprite_matches (sound : library.Sound) {s : Sprite} {part : Resolved}
    (run : library.resolveSprite s = .ok part) :
    ∃ e, library.Expands [s] e ∧ part.Matches e := by
  cases s with
  | real labels params position =>
    simp only [resolveSprite] at run
    split at run
    · cases run
    · rename_i table made
      cases run
      exact ⟨_, .real .nil, by simpa only [Expansion.append_empty] using single_matches made⟩
  | recolour labels mapping position =>
    simp only [resolveSprite] at run
    split at run
    · cases run
    · rename_i table made
      cases run
      exact ⟨_, .recolour .nil, by simpa only [Expansion.append_empty] using single_matches made⟩
  | use template args label position =>
    simp only [resolveSprite] at run
    split at run
    · cases run
    · rename_i t contents found
      obtain ⟨e, expands, agree⟩ := sound _ _ _ found
      refine ⟨_, .use found expands .nil, ?_⟩
      rw [Expansion.append_empty]
      cases label with
      | none =>
        cases run
        exact agree
      | some id =>
        simp only at run
        split at run
        · cases run
        · rename_i table added
          cases run
          exact labelled_matches agree added
  | foreign source position => cases run

/-- An element whose expansion has no name twice can be resolved. -/
theorem exists_resolveSprite (sound : library.Sound) {s : Sprite} {e : Expansion}
    (expands : library.Expands [s] e) (distinct : e.names.Nodup) :
    ∃ part, library.resolveSprite s = .ok part := by
  cases expands with
  | real none =>
    cases none
    rw [Expansion.append_empty, Expansion.names_single] at distinct
    obtain ⟨table, made⟩ := LabelTable.exists_ofIdentifiers distinct
    exact ⟨⟨table, 1⟩, by simp only [resolveSprite, made]⟩
  | recolour none =>
    cases none
    rw [Expansion.append_empty, Expansion.names_single] at distinct
    obtain ⟨table, made⟩ := LabelTable.exists_ofIdentifiers distinct
    exact ⟨⟨table, 1⟩, by simp only [resolveSprite, made]⟩
  | @use template args label position _ t contents inner _ found expandsInner none =>
    cases none
    rw [Expansion.append_empty] at distinct
    cases label with
    | none => exact ⟨contents, by simp only [resolveSprite, found]⟩
    | some id =>
      obtain ⟨e, expands, agree⟩ := sound _ _ _ found
      cases expands.unique expandsInner
      have names : ((contents.labels.labels ++ [(⟨id.name, 0, id.position⟩ : Label)]).map
          Label.name).Nodup := by
        rw [← Expansion.names_toLabel] at distinct
        refine (List.Perm.nodup_iff ?_).mpr distinct
        exact ((List.perm_append_singleton _ _).trans (agree.labels.cons _)).map _
      have added : contents.labels.add ⟨id.name, 0, id.position⟩ = .ok ⟨_, names⟩ :=
        LabelTable.add_eq_ok.mpr rfl
      exact ⟨⟨⟨_, names⟩, contents.count⟩, by simp only [resolveSprite, found, added]⟩

/-- A resolved sequence agrees with its expansion, after whatever was resolved before it. -/
theorem resolveAfter_matches (sound : library.Sound) {sprites : List Sprite}
    {done r : Resolved} {d : Expansion} (agree : done.Matches d)
    (run : library.resolveAfter done sprites = .ok r) :
    ∃ e, library.Expands sprites e ∧ r.Matches (d.append e) := by
  induction sprites generalizing done d with
  | nil =>
    cases run
    exact ⟨_, .nil, by rwa [Expansion.append_empty]⟩
  | cons s rest ih =>
    simp only [resolveAfter] at run
    split at run
    · cases run
    · rename_i part resolved
      obtain ⟨first, head, agreePart⟩ := resolveSprite_matches sound resolved
      split at run
      · cases run
      · rename_i table merged
        obtain ⟨last, tail, agreeAll⟩ := ih (agree.merge agreePart merged) run
        refine ⟨_, head.cons tail, ?_⟩
        rwa [← Expansion.append_assoc]

/-- A sequence is resolved unless a name occurs twice, in its own expansion or in what was resolved
before it. -/
theorem exists_resolveAfter (sound : library.Sound) {sprites : List Sprite} {done : Resolved}
    {d e : Expansion} (agree : done.Matches d) (expands : library.Expands sprites e)
    (distinct : (d.append e).names.Nodup) : ∃ r, library.resolveAfter done sprites = .ok r := by
  induction sprites generalizing done d e with
  | nil => exact ⟨done, rfl⟩
  | cons s rest ih =>
    obtain ⟨first, last, head, tail, rfl⟩ := expands.uncons
    rw [← Expansion.append_assoc] at distinct
    have upToFirst : (d.append first).names.Nodup := by
      rw [Expansion.names_append] at distinct
      exact distinct.of_append_left
    have ownNames : first.names.Nodup := by
      rw [Expansion.names_append] at upToFirst
      exact upToFirst.of_append_right
    obtain ⟨part, resolved⟩ := exists_resolveSprite sound head ownNames
    obtain ⟨again, expandsAgain, agreePart⟩ := resolveSprite_matches sound resolved
    cases expandsAgain.unique head
    obtain ⟨table, merged⟩ := agree.exists_merge agreePart upToFirst
    obtain ⟨r, run⟩ := ih (agree.merge agreePart merged) tail distinct
    exact ⟨r, by simp only [resolveAfter, resolved, merged, run]⟩

theorem resolve_matches (sound : library.Sound) {sprites : List Sprite} {r : Resolved}
    (run : library.resolve sprites = .ok r) : ∃ e, library.Expands sprites e ∧ r.Matches e := by
  obtain ⟨e, expands, agree⟩ := resolveAfter_matches sound .empty run
  rw [Expansion.empty_append] at agree
  exact ⟨e, expands, agree⟩

theorem exists_resolve (sound : library.Sound) {sprites : List Sprite} {e : Expansion}
    (expands : library.Expands sprites e) (distinct : e.names.Nodup) :
    ∃ r, library.resolve sprites = .ok r :=
  exists_resolveAfter sound .empty expands (by rwa [Expansion.empty_append])

theorem exists_expands (sound : library.Sound) {sprites : List Sprite}
    (admitted : ∀ s ∈ sprites, library.Admits s) : ∃ e, library.Expands sprites e := by
  induction sprites with
  | nil => exact ⟨_, .nil⟩
  | cons s rest ih =>
    obtain ⟨here, later⟩ := List.forall_mem_cons.mp admitted
    obtain ⟨last, tail⟩ := ih later
    cases s with
    | real labels params position => exact ⟨_, .real tail⟩
    | recolour labels mapping position => exact ⟨_, .recolour tail⟩
    | use template args label position =>
      obtain ⟨⟨t, contents⟩, found⟩ := Option.isSome_iff_exists.mp here
      obtain ⟨inner, expands, _⟩ := sound _ _ _ found
      exact ⟨_, .use found expands tail⟩
    | foreign source position => exact here.elim

theorem register_eq_ok {t : Template} {after : TemplateLibrary} {contents : Resolved} :
    library.register t = .ok (after, contents) ↔
      library.usageFailure? t t.sprites = none ∧ library.find? t.name.name = none ∧
        library.resolve t.sprites = .ok contents ∧
        after = ⟨library.entries ++ [(t, contents)]⟩ := by
  unfold register
  cases library.usageFailure? t t.sprites with
  | some failure => simp
  | none =>
    cases library.find? t.name.name with
    | some entry => simp
    | none =>
      cases library.resolve t.sprites with
      | error failure => simp
      | ok found =>
        simp only [Except.ok.injEq, Prod.mk.injEq, true_and]
        constructor
        · rintro ⟨rfl, rfl⟩
          exact ⟨rfl, rfl⟩
        · rintro ⟨rfl, rfl⟩
          exact ⟨rfl, rfl⟩

/-- One step of a resolution, with the labels of the element put in order. -/
theorem resolveAfter_cons {done part after : Resolved} {s : Sprite} (labels : List Label)
    (resolved : library.resolveSprite s = .ok part) (listed : labels.Perm part.labels.labels)
    (sorted : labels.Pairwise Label.Before)
    (merged : after.labels.labels = done.labels.labels ++ labels.map (·.shift done.count))
    (counted : after.count = done.count + part.count) (rest : List Sprite) :
    library.resolveAfter done (s :: rest) = library.resolveAfter after rest := by
  have added : done.labels.merge part.labels done.count = .ok after.labels := by
    rw [LabelTable.merge_eq_addAll labels listed sorted, LabelTable.addAll_eq_ok, merged]
  simp only [resolveAfter, resolved, added, ← counted]

/-- A new entry is found under its own name, and hides no other. -/
theorem find?_concat (entry : Template × Resolved) (name : String) :
    find? ⟨library.entries ++ [entry]⟩ name =
      (library.find? name).or (if entry.1.name.name = name then some entry else none) := by
  simp only [find?, List.find?_append, List.find?_singleton, beq_iff_eq]

theorem Sound.register (sound : library.Sound) {t : Template} {after : TemplateLibrary}
    {contents : Resolved} (run : library.register t = .ok (after, contents)) : after.Sound := by
  obtain ⟨_, _, resolved, rfl⟩ := register_eq_ok.mp run
  have grows : ∀ name entry, library.find? name = some entry →
      find? ⟨library.entries ++ [(t, contents)]⟩ name = some entry := by
    intro name entry found
    rw [find?_concat, found, Option.some_or]
  intro name u kept found
  rw [find?_concat] at found
  rcases Option.or_eq_some_iff.mp found with old | ⟨_, new⟩
  · obtain ⟨e, expands, agree⟩ := sound name u kept old
    exact ⟨e, expands.mono grows, agree⟩
  · obtain ⟨_, same⟩ := Option.ite_none_right_eq_some.mp new
    cases same
    obtain ⟨e, expands, agree⟩ := resolve_matches sound resolved
    exact ⟨e, expands.mono grows, agree⟩

/-- Registers templates one after the other. One that is refused leaves the library as it is. -/
def registerAll (library : TemplateLibrary) : List Template → TemplateLibrary
  | [] => library
  | t :: rest =>
    match library.register t with
    | .error _ => library.registerAll rest
    | .ok (after, _) => after.registerAll rest

theorem Sound.registerAll (sound : library.Sound) (templates : List Template) :
    (library.registerAll templates).Sound := by
  induction templates generalizing library with
  | nil => exact sound
  | cons t rest ih =>
    unfold TemplateLibrary.registerAll
    split
    · exact ih sound
    · rename_i after contents run
      exact ih (sound.register run)

theorem sound_registerAll (templates : List Template) : (registerAll {} templates).Sound :=
  Sound.registerAll (by simp [Sound, find?]) templates

/-- Resolving a sequence is expanding it. Every sequence of sprites and usages of registered
templates has exactly one expansion. It is resolved exactly when no label occurs twice there, and
then labels, offsets and count are those of the expansion. -/
theorem resolve_exact (templates : List Template) (sprites : List Sprite) :
    ((∀ s ∈ sprites, (registerAll {} templates).Admits s) →
      ∃! e, (registerAll {} templates).Expands sprites e) ∧
    ((∃ r, (registerAll {} templates).resolve sprites = .ok r) ↔
      (∀ s ∈ sprites, (registerAll {} templates).Admits s) ∧
        ∀ e, (registerAll {} templates).Expands sprites e → e.names.Nodup) ∧
    ∀ r e, (registerAll {} templates).resolve sprites = .ok r →
      (registerAll {} templates).Expands sprites e →
      r.labels.labels.Perm
        (e.marks.map fun m => ⟨m.label.name, Int64.ofNat m.before, m.label.position⟩) ∧
      r.count = Int64.ofNat e.sprites.length := by
  have sound := sound_registerAll templates
  have agrees : ∀ r e, (registerAll {} templates).resolve sprites = .ok r →
      (registerAll {} templates).Expands sprites e → r.Matches e := by
    intro r e run expands
    obtain ⟨same, expandsSame, agree⟩ := resolve_matches sound run
    rwa [expands.unique expandsSame]
  refine ⟨?_, ⟨?_, ?_⟩, ?_⟩
  · intro admitted
    obtain ⟨e, expands⟩ := exists_expands sound admitted
    exact ⟨e, expands, fun other again => again.unique expands⟩
  · rintro ⟨r, run⟩
    obtain ⟨e, expands, _⟩ := resolve_matches sound run
    exact ⟨expands.admits, fun e expands => (agrees r e run expands).names_nodup⟩
  · rintro ⟨admitted, distinct⟩
    obtain ⟨e, expands⟩ := exists_expands sound admitted
    exact exists_resolve sound expands (distinct e expands)
  · intro r e run expands
    have agree := agrees r e run expands
    exact ⟨agree.labels, agree.count⟩

end TemplateLibrary

end Grf
