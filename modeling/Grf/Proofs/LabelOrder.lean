import Grf.Proofs.ByteOrder
import Grf.Proofs.LabelTables
import Mathlib.Data.List.Nodup

namespace Grf

namespace LabelTable

variable {t u : LabelTable} {l : Label} {a b name : String}

/-- No two labels have one name, so a label is found under its own. -/
theorem find?_eq_some_iff : t.find? name = some l ↔ l ∈ t.labels ∧ l.name = name := by
  constructor
  · intro found
    exact ⟨List.mem_of_find?_eq_some found, by simpa using List.find?_some found⟩
  · rintro ⟨member, rfl⟩
    obtain ⟨m, found⟩ : ∃ m, t.find? l.name = some m := by
      rw [← Option.isSome_iff_exists, find?, List.find?_isSome]
      exact ⟨l, member, beq_self_eq_true _⟩
    have same : m.name = l.name := by simpa using List.find?_some found
    have equal : m = l :=
      List.inj_on_of_nodup_map t.distinct (List.mem_of_find?_eq_some found) member same
    rw [found, equal]

theorem mem_labels_iff : l ∈ t.labels ↔ t.find? l.name = some l := by
  rw [find?_eq_some_iff, and_iff_left rfl]

/-- The order of the definitions does not matter to what is found. -/
theorem find?_eq_of_perm (same : u.labels.Perm t.labels) (name : String) :
    u.find? name = t.find? name := by
  refine Option.ext fun l => ?_
  rw [find?_eq_some_iff, find?_eq_some_iff, same.mem_iff]

/-- Tables that find the same labels list them in the same order. -/
theorem ordered_eq (same : ∀ name, u.find? name = t.find? name) : u.ordered = t.ordered := by
  have labels : u.labels.Perm t.labels := by
    refine (List.perm_ext_iff_of_nodup (List.Nodup.of_map _ u.distinct)
      (List.Nodup.of_map _ t.distinct)).mpr fun l => ?_
    rw [mem_labels_iff, mem_labels_iff, same]
  exact (ordered_unique (u.ordered_perm.trans labels) u.pairwise_ordered).symm

/-- The names of the labels, by offset and then by name. -/
def names (t : LabelTable) : List String :=
  t.ordered.map Label.name

/-- The offset of the label with the given name. -/
def offset? (t : LabelTable) (name : String) : Option Int64 :=
  (t.find? name).map Label.offset

/-- One label has the smaller offset, or both have the same and its name has the smaller bytes. -/
def Precedes (t : LabelTable) (a b : String) : Prop :=
  ∃ x y, t.offset? a = some x ∧ t.offset? b = some y ∧
    (x.toInt < y.toInt ∨ x.toInt = y.toInt ∧ Text.bytes a < Text.bytes b)

theorem offset?_of_mem (member : l ∈ t.ordered) : t.offset? l.name = some l.offset := by
  have found := mem_labels_iff.mp (t.ordered_perm.mem_iff.mp member)
  rw [offset?, found, Option.map_some]

theorem precedes_iff {l m : Label} (left : l ∈ t.ordered) (right : m ∈ t.ordered) :
    t.Precedes l.name m.name ↔ l.Before m := by
  have bytes := Text.lt_iff_bytes_lt (s := l.name) (t := m.name)
  simp only [Precedes, offset?_of_mem left, offset?_of_mem right, Option.some.injEq,
    exists_and_left, exists_eq_left', Label.Before, Int64.lt_iff_toInt_lt, Int64.toInt_inj, bytes]

theorem nodup_names (t : LabelTable) : t.names.Nodup :=
  t.distinct_ordered

theorem mem_names_iff : name ∈ t.names ↔ (t.offset? name).isSome := by
  rw [names, offset?, Option.isSome_map, find?, List.find?_isSome,
    (t.ordered_perm.map Label.name).mem_iff, List.mem_map]
  simp

theorem pairwise_names (t : LabelTable) : t.names.Pairwise t.Precedes := by
  rw [names, List.pairwise_map]
  refine t.pairwise_ordered.imp_of_mem fun left right before => ?_
  exact (precedes_iff left right).mpr before

/-- Any two names of a table come one before the other. -/
theorem Precedes.total (left : a ∈ t.names) (right : b ∈ t.names) (different : a ≠ b)
    (late : ¬ t.Precedes a b) : t.Precedes b a := by
  obtain ⟨l, inside, rfl⟩ := List.mem_map.mp left
  obtain ⟨m, insideToo, rfl⟩ := List.mem_map.mp right
  rw [precedes_iff inside insideToo] at late
  exact (precedes_iff insideToo inside).mpr (Label.before_of_not_before different late)

theorem names_unique {listing : List String} (listed : listing.Perm t.names)
    (sorted : listing.Pairwise fun a b => ¬ t.Precedes b a) : listing = t.names := by
  have inOrder : t.names.Pairwise fun a b => ¬ t.Precedes b a := by
    rw [names, List.pairwise_map]
    refine t.pairwise_ordered.imp_of_mem fun left right before late => ?_
    exact Label.not_before_of_before before ((precedes_iff right left).mp late)
  refine List.Perm.eq_of_pairwise (fun a b left right notAfter notBefore => ?_) sorted inOrder listed
  by_contra different
  exact notAfter (Precedes.total (listed.mem_iff.mp left) right different notBefore)

theorem count_names (t : LabelTable) (name : String) :
    t.names.count name = if (t.offset? name).isSome then 1 else 0 := by
  split
  · rename_i defined
    exact List.count_eq_one_of_mem t.nodup_names (mem_names_iff.mpr defined)
  · rename_i undefined
    exact List.count_eq_zero.mpr fun member => undefined (mem_names_iff.mp member)

end LabelTable

/-- The label without the place of its definition. -/
def Label.unplaced (l : Label) : Label :=
  { l with definedAt := none }

/-- The failure without the places that it tells of. -/
def Failure.unplaced : Failure → Failure
  | script e => script { e with position := none, first := none }
  | other => other

namespace LabelTable

variable {t u : LabelTable}

/-- The table without the places of the definitions. -/
def unplaced (t : LabelTable) : LabelTable where
  labels := t.labels.map Label.unplaced
  distinct := by
    rw [List.map_map]
    exact t.distinct

theorem find?_unplaced (t : LabelTable) (name : String) :
    t.unplaced.find? name = (t.find? name).map Label.unplaced :=
  List.find?_map ..

theorem ordered_unplaced (t : LabelTable) : t.unplaced.ordered = t.ordered.map Label.unplaced := by
  -- The places of the definitions play no part in the comparison of labels.
  have same : ∀ a ∈ t.labels, ∀ b ∈ t.labels,
      (!decide (b.Before a)) = !decide (b.unplaced.Before a.unplaced) := fun _ _ _ _ => rfl
  exact (List.map_mergeSort same).symm

theorem names_unplaced (t : LabelTable) : t.unplaced.names = t.names := by
  rw [names, ordered_unplaced, List.map_map]
  rfl

/-- Without its place a label is its name with its offset. -/
theorem unplaced_eq (same : ∀ name, u.offset? name = t.offset? name) (name : String) :
    u.unplaced.find? name = t.unplaced.find? name := by
  have described (t : LabelTable) :
      t.unplaced.find? name = (t.offset? name).map fun offset => ⟨name, offset, none⟩ := by
    rw [find?_unplaced, offset?, Option.map_map]
    refine Option.map_congr fun l found => ?_
    have named : l.name = name := by simpa using List.find?_some found
    rw [Function.comp_apply, Label.unplaced, named]
  rw [described, described, same]

/-- The outcome of an addition without the places that it tells of. -/
def unplacedOutcome (outcome : Except Failure LabelTable) : Except Failure LabelTable :=
  (outcome.map unplaced).mapError Failure.unplaced

theorem add_of_taken {l first : Label} (taken : t.find? l.name = some first) :
    t.add l = .error (.redefinition (.labelTaken l.name) l.definedAt first.definedAt) := by
  unfold add
  split
  · rename_i other found
    rw [taken] at found
    cases found
    rfl
  · rename_i fresh
    rw [taken] at fresh
    cases fresh

theorem add_of_fresh {l : Label} (fresh : t.find? l.name = none) :
    t.add l = .ok ⟨t.labels ++ [l], nodup_names_append t.distinct fresh⟩ := by
  unfold add
  split
  · rename_i other found
    rw [fresh] at found
    cases found
  · rfl

theorem add_unplaced (t : LabelTable) (l : Label) :
    t.unplaced.add l.unplaced = unplacedOutcome (t.add l) := by
  have found := t.find?_unplaced l.name
  cases taken : t.find? l.name with
  | none =>
    rw [taken, Option.map_none] at found
    rw [add_of_fresh taken, add_of_fresh (l := l.unplaced) found]
    refine congrArg Except.ok (eq_of_labels_eq ?_)
    show t.labels.map Label.unplaced ++ [l.unplaced] = (t.labels ++ [l]).map Label.unplaced
    rw [List.map_append, List.map_singleton]
  | some first =>
    rw [taken, Option.map_some] at found
    rw [add_of_taken taken, add_of_taken (l := l.unplaced) found]
    rfl

theorem addAll_unplaced (t : LabelTable) (labels : List Label) :
    t.unplaced.addAll (labels.map Label.unplaced) = unplacedOutcome (t.addAll labels) := by
  induction labels generalizing t with
  | nil => rfl
  | cons l rest ih =>
    rw [List.map_cons, addAll, addAll, add_unplaced]
    cases t.add l with
    | error failure => rfl
    | ok extended => exact ih extended

theorem merge_unplaced (t part : LabelTable) (offset : Int64) :
    t.unplaced.merge part.unplaced offset = unplacedOutcome (t.merge part offset) := by
  rw [merge, merge, ← addAll_unplaced, ordered_unplaced, List.map_map, List.map_map]
  rfl

/-- The names are listed once each in an order that leaves no choice: by offset, then by the bytes of
the name. So neither the list nor a merge depends on how the table came about. A table with the same
offsets has the same list, and merging it defines the same labels or fails at the same one; if also the
places are the same, so is the whole outcome. -/
theorem names_canonical (t : LabelTable) :
    (∀ name, t.names.count name = if (t.offset? name).isSome then 1 else 0) ∧
    t.names.Pairwise t.Precedes ∧
    (∀ listing : List String, listing.Perm t.names →
      listing.Pairwise (fun a b => ¬ t.Precedes b a) → listing = t.names) ∧
    ∀ u : LabelTable, (∀ name, u.offset? name = t.offset? name) →
      u.names = t.names ∧
      (∀ scope offset, unplacedOutcome (merge scope u offset) =
        unplacedOutcome (merge scope t offset)) ∧
      ((∀ name, u.find? name = t.find? name) →
        ∀ scope offset, merge scope u offset = merge scope t offset) := by
  refine ⟨t.count_names, t.pairwise_names, fun _ => names_unique, fun u same => ?_⟩
  have ordered : u.unplaced.ordered = t.unplaced.ordered := ordered_eq (unplaced_eq same)
  refine ⟨?_, fun scope offset => ?_, fun identical scope offset => ?_⟩
  · rw [← names_unplaced, names, ordered, ← names, names_unplaced]
  · rw [← merge_unplaced, ← merge_unplaced, merge, ordered, ← merge]
  · rw [merge, ordered_eq identical, ← merge]

/-- Three labels in one order of definition. -/
def trio : LabelTable :=
  ⟨[⟨"b", 0, none⟩, ⟨"é", -1, none⟩, ⟨"a", 0, none⟩], by decide⟩

/-- The same labels in another one. -/
def trioReversed : LabelTable :=
  ⟨[⟨"a", 0, none⟩, ⟨"é", -1, none⟩, ⟨"b", 0, none⟩], by decide⟩

theorem names_canonical_trio : trio.labels ≠ trioReversed.labels ∧
    (∀ name, trioReversed.find? name = trio.find? name) ∧
    trio.names = ["é", "a", "b"] ∧ trioReversed.names = trio.names ∧
    ∀ offset, merge trio trioReversed offset = merge trio trio offset := by
  have same : ∀ name, trioReversed.find? name = trio.find? name :=
    find?_eq_of_perm (by decide)
  obtain ⟨_, _, _, canonical⟩ := names_canonical trio
  obtain ⟨names, _, merged⟩ :=
    canonical trioReversed fun name => congrArg (Option.map Label.offset) (same name)
  have listed : trio.ordered = [⟨"é", -1, none⟩, ⟨"a", 0, none⟩, ⟨"b", 0, none⟩] :=
    ordered_unique (by decide) (by decide)
  have inOrder : trio.names = ["é", "a", "b"] := by
    rw [LabelTable.names, listed]
    rfl
  exact ⟨by decide, same, inOrder, names, merged same trio⟩

end LabelTable

end Grf
