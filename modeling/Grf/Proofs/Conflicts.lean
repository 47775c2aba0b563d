import Grf.Proofs.Resolution

namespace Grf

/-- The failure tells of two labels of one name. The second one is behind the first `start` labels of
the list, the other one anywhere before it. -/
def Failure.IsRepetition (failure : Failure) (ids : List Identifier) (start : Nat) : Prop :=
  ∃ i j earlier later, i < j ∧ start ≤ j ∧ ids[i]? = some earlier ∧ ids[j]? = some later ∧
    earlier.name = later.name ∧
    failure = .redefinition (.labelTaken later.name) later.position earlier.position

namespace Failure

variable {ids before rest : List Identifier} {earlier later : Identifier} {start : Nat}

theorem isRepetition_of_mem (member : earlier ∈ before) (sameName : earlier.name = later.name)
    (late : start ≤ before.length) :
    (redefinition (.labelTaken later.name) later.position earlier.position).IsRepetition
      (before ++ later :: rest) start := by
  obtain ⟨i, inside, rfl⟩ := List.getElem_of_mem member
  refine ⟨i, before.length, before[i], later, inside, late, ?_, ?_, sameName, rfl⟩
  · rw [List.getElem?_append_left inside, List.getElem?_eq_getElem inside]
  · rw [List.getElem?_append_right (Nat.le_refl _), Nat.sub_self, List.getElem?_cons_zero]

theorem IsRepetition.after {failure : Failure} (repetition : failure.IsRepetition rest 0)
    (ids : List Identifier) : failure.IsRepetition (ids ++ rest) ids.length := by
  obtain ⟨i, j, earlier, later, before, _, atI, atJ, told⟩ := repetition
  refine ⟨ids.length + i, ids.length + j, earlier, later, by omega, by omega, ?_, ?_, told⟩
  · rw [List.getElem?_append_right (Nat.le_add_right _ _), Nat.add_sub_cancel_left, atI]
  · rw [List.getElem?_append_right (Nat.le_add_right _ _), Nat.add_sub_cancel_left, atJ]

end Failure

namespace LabelTable

variable {t part : LabelTable} {l : Label} {labels : List Label} {failure : Failure}

theorem add_error (failed : t.add l = .error failure) :
    ∃ first ∈ t.labels, first.name = l.name ∧
      failure = .redefinition (.labelTaken l.name) l.definedAt first.definedAt := by
  unfold add at failed
  split at failed
  · rename_i first taken
    cases failed
    exact ⟨first, List.mem_of_find?_eq_some taken, by simpa using List.find?_some taken, rfl⟩
  · cases failed

/-- The label that cannot be added repeats a name of the table or of a label before it. -/
theorem addAll_error (failed : t.addAll labels = .error failure) :
    ∃ before l rest first, labels = before ++ l :: rest ∧ first ∈ t.labels ++ before ∧
      first.name = l.name ∧
      failure = .redefinition (.labelTaken l.name) l.definedAt first.definedAt := by
  induction labels generalizing t with
  | nil => cases failed
  | cons l rest ih =>
    rw [addAll] at failed
    split at failed
    · rename_i reason refused
      cases failed
      obtain ⟨first, member, sameName, rfl⟩ := add_error refused
      exact ⟨[], l, rest, first, rfl, by simpa using member, sameName, rfl⟩
    · rename_i extended added
      -- The label just added is one of those that a later one can repeat.
      obtain ⟨before, m, after, first, rfl, member, sameName, rfl⟩ := ih failed
      rw [add_eq_ok.mp added, List.append_assoc, List.singleton_append] at member
      exact ⟨l :: before, m, after, first, rfl, member, sameName, rfl⟩

/-- The names of a table differ, so in a merge it is a label of the other table that is repeated. -/
theorem merge_error {offset : Int64} (failed : t.merge part offset = .error failure) :
    ∃ first ∈ t.labels, ∃ l ∈ part.labels, first.name = l.name ∧
      failure = .redefinition (.labelTaken l.name) l.definedAt first.definedAt := by
  obtain ⟨before, shifted, rest, first, split, member, sameName, rfl⟩ := addAll_error failed
  have inside : shifted ∈ part.ordered.map (·.shift offset) := by
    rw [split]
    exact List.mem_append_cons_self
  obtain ⟨l, ordered, rfl⟩ := List.mem_map.mp inside
  refine ⟨first, ?_, l, part.ordered_perm.mem_iff.mp ordered, sameName, rfl⟩
  have distinct : ((before ++ l.shift offset :: rest).map Label.name).Nodup := by
    rw [← split, List.map_map]
    exact part.distinct_ordered
  rcases List.mem_append.mp member with old | new
  · exact old
  · rw [List.map_append, List.nodup_append] at distinct
    exact absurd sameName
      (distinct.2.2 _ (List.mem_map_of_mem new) _ (List.mem_map_of_mem List.mem_cons_self))

theorem ofIdentifiers_error {names : List Identifier}
    (failed : ofIdentifiers names = .error failure) : failure.IsRepetition names 0 := by
  obtain ⟨before, l, rest, first, split, member, sameName, rfl⟩ := addAll_error failed
  obtain ⟨others, last, rfl, rfl, atLast⟩ := List.map_eq_append_iff.mp split
  obtain ⟨later, after, rfl, rfl, rfl⟩ := List.map_eq_cons_iff.mp atLast
  rw [List.nil_append] at member
  obtain ⟨earlier, inside, rfl⟩ := List.mem_map.mp member
  exact Failure.isRepetition_of_mem inside sameName (Nat.zero_le _)

end LabelTable

/-- The labels of a flat sprite list. -/
def Expansion.labels (e : Expansion) : List Identifier :=
  e.marks.map Mark.label

namespace Expansion

theorem labels_single (s : Sprite) (labels : List Identifier) : (single s labels).labels = labels := by
  simp [Expansion.labels, single, Function.comp_def]

theorem labels_labelled (e : Expansion) (label : Option Identifier) :
    (e.labelled label).labels = label.toList ++ e.labels := by
  simp [Expansion.labels, labelled, Function.comp_def]

theorem labels_append (e next : Expansion) : (e.append next).labels = e.labels ++ next.labels := by
  simp [Expansion.labels, append, Mark.after]

end Expansion

/-- Every label of the table comes from one of the identifiers. -/
def LabelTable.DefinedBy (t : LabelTable) (ids : List Identifier) : Prop :=
  ∀ l ∈ t.labels, ∃ id ∈ ids, id.name = l.name ∧ id.position = l.definedAt

theorem Resolved.Matches.definedBy {r : Resolved} {e : Expansion} (agree : r.Matches e)
    {ids : List Identifier} (perm : ids.Perm e.labels) : r.labels.DefinedBy ids := by
  intro l member
  obtain ⟨m, marked, rfl⟩ := List.mem_map.mp (agree.labels.mem_iff.mp member)
  exact ⟨m.label, perm.mem_iff.mpr (List.mem_map_of_mem marked), rfl, rfl⟩

namespace TemplateLibrary

/-- The labels of the full expansion of a sequence, in the order of their definition: the label of a
usage comes after all labels of its template. -/
inductive Defines (library : TemplateLibrary) : List Sprite → List Identifier → Prop
  | nil : Defines library [] []
  | real {labels params position rest ids} :
      Defines library rest ids →
      Defines library (.real labels params position :: rest) (labels ++ ids)
  | recolour {labels mapping position rest ids} :
      Defines library rest ids →
      Defines library (.recolour labels mapping position :: rest) (labels ++ ids)
  | use {template args label position rest t contents inner ids} :
      library.find? template.name = some (t, contents) → Defines library t.sprites inner →
      Defines library rest ids →
      Defines library (.use template args label position :: rest) (inner ++ label.toList ++ ids)

variable {library : TemplateLibrary} {sprites more : List Sprite} {s : Sprite} {e : Expansion}
  {ids others : List Identifier} {failure : Failure}

namespace Defines

theorem unique (defines : library.Defines sprites ids) (again : library.Defines sprites others) :
    ids = others := by
  induction defines generalizing others with
  | nil =>
    cases again
    rfl
  | real _ ih =>
    cases again with
    | real tail => rw [ih tail]
  | recolour _ ih =>
    cases again with
    | recolour tail => rw [ih tail]
  | use found _ _ ihInner ih =>
    cases again with
    | use foundAgain inner tail =>
      cases found.symm.trans foundAgain
      rw [ihInner inner, ih tail]

theorem append (first : library.Defines sprites ids) (second : library.Defines more others) :
    library.Defines (sprites ++ more) (ids ++ others) := by
  induction first with
  | nil => exact second
  | real _ ih =>
    rw [List.append_assoc]
    exact real ih
  | recolour _ ih =>
    rw [List.append_assoc]
    exact recolour ih
  | use found inner _ _ ih =>
    rw [List.append_assoc]
    exact use found inner ih

/-- The definitions of a sequence begin with those of its beginning. -/
theorem isPrefix (whole : library.Defines (sprites ++ more) others)
    (start : library.Defines sprites ids) : ids <+: others := by
  induction start generalizing others with
  | nil => exact List.nil_prefix
  | real _ ih =>
    cases whole with
    | real tail => exact (List.prefix_append_right_inj _).mpr (ih tail)
  | recolour _ ih =>
    cases whole with
    | recolour tail => exact (List.prefix_append_right_inj _).mpr (ih tail)
  | use found inner _ _ ih =>
    cases whole with
    | use foundAgain innerAgain tail =>
      cases found.symm.trans foundAgain
      rw [innerAgain.unique inner]
      exact (List.prefix_append_right_inj _).mpr (ih tail)

theorem admits (defines : library.Defines [s] ids) : library.Admits s := by
  cases defines with
  | real => trivial
  | recolour => trivial
  | use found => simp only [Admits, found, Option.isSome_some]

end Defines

/-- The order is all that sets the definitions apart from the labels of the expansion. -/
theorem Expands.exists_defines (expands : library.Expands sprites e) :
    ∃ ids, library.Defines sprites ids ∧ ids.Perm e.labels := by
  induction expands with
  | nil => exact ⟨_, .nil, .refl _⟩
  | real _ ih =>
    obtain ⟨ids, defines, perm⟩ := ih
    refine ⟨_, .real defines, ?_⟩
    rw [Expansion.labels_append, Expansion.labels_single]
    exact perm.append_left _
  | recolour _ ih =>
    obtain ⟨ids, defines, perm⟩ := ih
    refine ⟨_, .recolour defines, ?_⟩
    rw [Expansion.labels_append, Expansion.labels_single]
    exact perm.append_left _
  | use found _ _ ihInner ih =>
    obtain ⟨ids, defines, perm⟩ := ih
    obtain ⟨inner, definesInner, permInner⟩ := ihInner
    refine ⟨_, .use found definesInner defines, ?_⟩
    rw [Expansion.labels_append, Expansion.labels_labelled]
    exact (List.perm_append_comm.trans (permInner.append_left _)).append perm

theorem exists_definedBy {r : Resolved} (agree : r.Matches e) (expands : library.Expands sprites e) :
    ∃ ids, library.Defines sprites ids ∧ r.labels.DefinedBy ids := by
  obtain ⟨ids, defines, perm⟩ := expands.exists_defines
  exact ⟨ids, defines, agree.definedBy perm⟩

/-- An element that has two labels of one name in itself. -/
theorem resolveSprite_duplicate (sound : library.Sound)
    (failed : library.resolveSprite s = .error failure)
    (duplicate : failure.kind? = some .duplicate) :
    ∃ own, library.Defines [s] own ∧ failure.IsRepetition own 0 := by
  cases s with
  | real labels params position =>
    simp only [resolveSprite] at failed
    split at failed
    · rename_i reason refused
      cases failed
      refine ⟨_, .real .nil, ?_⟩
      rw [List.append_nil]
      exact LabelTable.ofIdentifiers_error refused
    · cases failed
  | recolour labels mapping position =>
    simp only [resolveSprite] at failed
    split at failed
    · rename_i reason refused
      cases failed
      refine ⟨_, .recolour .nil, ?_⟩
      rw [List.append_nil]
      exact LabelTable.ofIdentifiers_error refused
    · cases failed
  | use template args label position =>
    simp only [resolveSprite] at failed
    split at failed
    · cases failed
      cases duplicate
    · rename_i t contents found
      obtain ⟨e, expands, agree⟩ := sound _ _ _ found
      obtain ⟨inner, defines, definedBy⟩ := exists_definedBy agree expands
      cases label with
      | none => cases failed
      | some id =>
        simp only at failed
        split at failed
        · rename_i reason refused
          cases failed
          obtain ⟨first, member, sameName, rfl⟩ := LabelTable.add_error refused
          obtain ⟨earlier, inside, named, placed⟩ := definedBy first member
          refine ⟨_, .use found defines .nil, ?_⟩
          rw [List.append_nil, ← placed]
          exact Failure.isRepetition_of_mem inside (named.trans sameName) (Nat.zero_le _)
        · cases failed
  | foreign source position =>
    cases failed
    cases duplicate

/-- A sequence fails at one of its elements, after others that are resolved. -/
theorem resolveAfter_error {done : Resolved}
    (failed : library.resolveAfter done sprites = .error failure) :
    ∃ before s rest mid, sprites = before ++ s :: rest ∧
      library.resolveAfter done before = .ok mid ∧
      (library.resolveSprite s = .error failure ∨
        ∃ part, library.resolveSprite s = .ok part ∧
          mid.labels.merge part.labels mid.count = .error failure) := by
  induction sprites generalizing done with
  | nil => cases failed
  | cons s rest ih =>
    rw [resolveAfter] at failed
    split at failed
    · rename_i reason refused
      cases failed
      exact ⟨[], s, rest, done, rfl, rfl, Or.inl refused⟩
    · rename_i part resolved
      split at failed
      · rename_i reason clash
        cases failed
        exact ⟨[], s, rest, done, rfl, rfl, Or.inr ⟨part, resolved, clash⟩⟩
      · rename_i table merged
        obtain ⟨before, last, after, mid, rfl, run, reason⟩ := ih failed
        refine ⟨s :: before, last, after, mid, rfl, ?_, reason⟩
        rw [resolveAfter, resolved]
        dsimp only
        rw [merged]
        exact run

/-- What follows the element that fails is not looked at. -/
theorem resolveAfter_error_append {done : Resolved}
    (failed : library.resolveAfter done sprites = .error failure) (more : List Sprite) :
    library.resolveAfter done (sprites ++ more) = .error failure := by
  induction sprites generalizing done with
  | nil => cases failed
  | cons s rest ih =>
    rw [List.cons_append, resolveAfter]
    rw [resolveAfter] at failed
    split at failed
    · exact failed
    · split at failed
      · exact failed
      · exact ih failed

/-- An element whose labels clash with those of a sequence before it. -/
theorem merge_duplicate {mid part : Resolved} {own : List Identifier}
    (definedBy : mid.labels.DefinedBy ids) (definedByOwn : part.labels.DefinedBy own)
    (failed : mid.labels.merge part.labels mid.count = .error failure) :
    failure.IsRepetition (ids ++ own) ids.length := by
  obtain ⟨first, old, l, new, sameName, rfl⟩ := LabelTable.merge_error failed
  obtain ⟨earlier, inside, named, placed⟩ := definedBy first old
  obtain ⟨later, insideOwn, namedLater, placedLater⟩ := definedByOwn l new
  obtain ⟨between, rest, rfl⟩ := List.append_of_mem insideOwn
  rw [← List.append_assoc, ← namedLater, ← placedLater, ← placed]
  refine Failure.isRepetition_of_mem (List.mem_append_left _ inside) ?_ ?_
  · rw [named, sameName, namedLater]
  · rw [List.length_append]
    exact Nat.le_add_right _ _

/-- Where a sequence fails for two labels of one name. -/
theorem resolve_conflict (sound : library.Sound) (failed : library.resolve sprites = .error failure)
    (duplicate : failure.kind? = some .duplicate) :
    ∃ before s rest ids own, sprites = before ++ s :: rest ∧
      (∃ r, library.resolve before = .ok r) ∧ library.Defines before ids ∧
      library.Defines [s] own ∧ failure.IsRepetition (ids ++ own) ids.length := by
  obtain ⟨before, s, rest, mid, rfl, run, reason⟩ := resolveAfter_error failed
  obtain ⟨e, expands, agree⟩ := resolve_matches sound run
  obtain ⟨ids, defines, definedBy⟩ := exists_definedBy agree expands
  rcases reason with refused | ⟨part, resolved, clash⟩
  · obtain ⟨own, definesOwn, repetition⟩ := resolveSprite_duplicate sound refused duplicate
    exact ⟨before, s, rest, ids, own, rfl, ⟨mid, run⟩, defines, definesOwn, repetition.after ids⟩
  · obtain ⟨single, expandsOwn, agreeOwn⟩ := resolveSprite_matches sound resolved
    obtain ⟨own, definesOwn, definedByOwn⟩ := exists_definedBy agreeOwn expandsOwn
    exact ⟨before, s, rest, ids, own, rfl, ⟨mid, run⟩, defines, definesOwn,
      merge_duplicate definedBy definedByOwn clash⟩

/-- A label that is reported as taken is indeed defined twice in the full expansion. The failure tells
where both labels are defined, the earlier one as the first definition. The elements before the one
that brings the later label are resolved without a failure, and whatever follows does not change the
report. -/
theorem resolve_duplicate (templates : List Template) {sprites : List Sprite} {failure : Failure}
    (failed : (registerAll {} templates).resolve sprites = .error failure)
    (duplicate : failure.kind? = some .duplicate) :
    (∃ before s rest ids own, sprites = before ++ s :: rest ∧
      (∃ r, (registerAll {} templates).resolve before = .ok r) ∧
      (registerAll {} templates).Defines before ids ∧
      (registerAll {} templates).Defines [s] own ∧
      failure.IsRepetition (ids ++ own) ids.length ∧
      (∃ e, (registerAll {} templates).Expands (before ++ [s]) e ∧
        (ids ++ own).Perm (e.marks.map Mark.label)) ∧
      ∀ whole, (registerAll {} templates).Defines sprites whole → ids ++ own <+: whole) ∧
    ∀ more, (registerAll {} templates).resolve (sprites ++ more) = .error failure := by
  have sound := sound_registerAll templates
  refine ⟨?_, fun more => resolveAfter_error_append failed more⟩
  obtain ⟨before, s, rest, ids, own, rfl, ⟨r, run⟩, defines, definesOwn, repetition⟩ :=
    resolve_conflict sound failed duplicate
  have both := defines.append definesOwn
  refine ⟨before, s, rest, ids, own, rfl, ⟨r, run⟩, defines, definesOwn, repetition, ?_, ?_⟩
  · obtain ⟨_, expandsBefore, _⟩ := resolve_matches sound run
    have admitted : ∀ sprite ∈ before ++ [s], (registerAll {} templates).Admits sprite :=
      List.forall_mem_append.mpr
        ⟨expandsBefore.admits, List.forall_mem_singleton.mpr definesOwn.admits⟩
    obtain ⟨e, expands⟩ := exists_expands sound admitted
    obtain ⟨labels, definesBoth, perm⟩ := expands.exists_defines
    rw [definesBoth.unique both] at perm
    exact ⟨e, expands, perm⟩
  · intro whole definesWhole
    rw [← List.singleton_append, ← List.append_assoc] at definesWhole
    exact definesWhole.isPrefix both

/-- A place in the file of the depot. -/
def depotLine (line : Int64) : Option Position :=
  some (.ofLine "depot" line 0 1)

def pair : Template :=
  ⟨⟨"pair", none⟩, [],
    [.real [⟨"left", depotLine 2⟩] [] none, .real [⟨"right", depotLine 3⟩] [] none], none⟩

def row : Template :=
  ⟨⟨"row", none⟩, [],
    [.real [] [] none, .use ⟨"pair", none⟩ [] (some ⟨"middle", depotLine 6⟩) none], none⟩

/-- A pair of sprites, and a row that ends with such a pair. -/
def depot : List Template :=
  [pair, row]

def convoy : List Sprite :=
  [.recolour [⟨"right", depotLine 8⟩] [] none,
    .use ⟨"row", none⟩ [] (some ⟨"head", depotLine 9⟩) none]

def collision : Failure :=
  .redefinition (.labelTaken "right") (depotLine 3) (depotLine 8)

def pairLabels : LabelTable :=
  ⟨[⟨"left", 0, depotLine 2⟩, ⟨"right", 1, depotLine 3⟩], by decide⟩

def rowLabels : LabelTable :=
  ⟨[⟨"left", 1, depotLine 2⟩, ⟨"middle", 1, depotLine 6⟩, ⟨"right", 2, depotLine 3⟩], by decide⟩

theorem resolve_pair : resolve {} pair.sprites = .ok ⟨pairLabels, 2⟩ :=
  calc resolveAfter {} {} pair.sprites
    _ = resolveAfter {} ⟨⟨[⟨"left", 0, depotLine 2⟩], by decide⟩, 1⟩
        [.real [⟨"right", depotLine 3⟩] [] none] :=
      resolveAfter_cons [⟨"left", 0, depotLine 2⟩] rfl (.refl _) (by decide) rfl rfl _
    _ = resolveAfter {} ⟨pairLabels, 2⟩ [] :=
      resolveAfter_cons [⟨"right", 0, depotLine 3⟩] rfl (.refl _) (by decide) rfl rfl []

theorem resolve_row : resolve ⟨[(pair, ⟨pairLabels, 2⟩)]⟩ row.sprites = .ok ⟨rowLabels, 3⟩ :=
  calc resolveAfter ⟨[(pair, ⟨pairLabels, 2⟩)]⟩ {} row.sprites
    _ = resolveAfter ⟨[(pair, ⟨pairLabels, 2⟩)]⟩ ⟨{}, 1⟩
        [.use ⟨"pair", none⟩ [] (some ⟨"middle", depotLine 6⟩) none] :=
      resolveAfter_cons [] rfl (.refl _) .nil rfl rfl _
    _ = resolveAfter ⟨[(pair, ⟨pairLabels, 2⟩)]⟩ ⟨rowLabels, 3⟩ [] :=
      resolveAfter_cons
        [⟨"left", 0, depotLine 2⟩, ⟨"middle", 0, depotLine 6⟩, ⟨"right", 1, depotLine 3⟩] rfl
        (by decide) (by decide) rfl rfl []

theorem registerAll_depot :
    registerAll {} depot = ⟨[(pair, ⟨pairLabels, 2⟩), (row, ⟨rowLabels, 3⟩)]⟩ := by
  have first := register_eq_ok.mpr ⟨rfl, rfl, resolve_pair, rfl⟩
  have second := register_eq_ok.mpr ⟨rfl, rfl, resolve_row, rfl⟩
  simp only [depot, registerAll, first]
  simp only [List.nil_append, second]
  rfl

/-- The label of the first sprite comes back in the pair that the row of the second element uses. The
report is the same if an element follows that cannot be resolved at all. -/
theorem resolve_duplicate_convoy :
    (registerAll {} depot).resolve convoy = .error collision ∧
      collision.kind? = some .duplicate ∧
      (∃ before s rest ids own, convoy = before ++ s :: rest ∧
        (registerAll {} depot).Defines before ids ∧ (registerAll {} depot).Defines [s] own ∧
        collision.IsRepetition (ids ++ own) ids.length) ∧
      (registerAll {} depot).resolve (convoy ++ [.foreign "gap" none]) = .error collision := by
  have clash : LabelTable.merge ⟨[⟨"right", 0, depotLine 8⟩], by decide⟩
      ⟨rowLabels.labels ++ [⟨"head", 0, depotLine 9⟩], by decide⟩ 1 = .error collision :=
    LabelTable.merge_eq_addAll (⟨"head", 0, depotLine 9⟩ :: rowLabels.labels) (by decide)
      (by decide)
  have part : resolveSprite ⟨[(pair, ⟨pairLabels, 2⟩), (row, ⟨rowLabels, 3⟩)]⟩
      (.use ⟨"row", none⟩ [] (some ⟨"head", depotLine 9⟩) none) =
        .ok ⟨⟨rowLabels.labels ++ [⟨"head", 0, depotLine 9⟩], by decide⟩, 3⟩ := rfl
  have failed : (registerAll {} depot).resolve convoy = .error collision := by
    have first : resolveAfter ⟨[(pair, ⟨pairLabels, 2⟩), (row, ⟨rowLabels, 3⟩)]⟩ {} convoy =
        resolveAfter _ ⟨⟨[⟨"right", 0, depotLine 8⟩], by decide⟩, 1⟩ _ :=
      resolveAfter_cons [⟨"right", 0, depotLine 8⟩] rfl (.refl _) (by decide) rfl rfl _
    rw [registerAll_depot, resolve, first]
    simp only [resolveAfter, part, clash]
  have duplicate : collision.kind? = some .duplicate := rfl
  obtain ⟨⟨before, s, rest, ids, own, split, _, defines, definesOwn, repetition, _⟩, stays⟩ :=
    resolve_duplicate depot failed duplicate
  exact ⟨failed, duplicate,
    ⟨before, s, rest, ids, own, split, defines, definesOwn, repetition⟩, stays _⟩

end TemplateLibrary

end Grf
