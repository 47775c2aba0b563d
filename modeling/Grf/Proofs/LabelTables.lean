import Grf.Label
import Mathlib.Data.Prod.Lex
import Mathlib.Data.String.Basic

namespace Grf

namespace Label

variable {a b : Label}

/-- What labels are listed by. -/
def key (l : Label) : Int ×ₗ String :=
  toLex (l.offset.toInt, l.name)

theorem before_iff_key_lt : a.Before b ↔ a.key < b.key := by
  rw [Before, key, key, Prod.Lex.toLex_lt_toLex, Int64.lt_iff_toInt_lt, ← Int64.toInt_inj]

/-- Labels of different names are never at one place of the order. -/
theorem before_of_not_before (different : a.name ≠ b.name) (late : ¬ a.Before b) : b.Before a := by
  rw [before_iff_key_lt] at late ⊢
  refine lt_of_le_of_ne (not_lt.mp late) fun same => different ?_
  exact (congrArg (fun k : Int ×ₗ String => (ofLex k).2) same).symm

theorem not_before_of_before (first : a.Before b) : ¬ b.Before a := by
  rw [before_iff_key_lt] at first ⊢
  exact lt_asymm first

end Label

namespace LabelTable

theorem ordered_perm (t : LabelTable) : t.ordered.Perm t.labels :=
  List.mergeSort_perm _ _

theorem distinct_ordered (t : LabelTable) : (t.ordered.map Label.name).Nodup :=
  (t.ordered_perm.map Label.name).nodup_iff.mpr t.distinct

theorem pairwise_ordered (t : LabelTable) : t.ordered.Pairwise Label.Before := by
  have sorted : t.ordered.Pairwise fun a b => (!decide (b.Before a)) = true := by
    refine List.pairwise_mergeSort (fun a b c first second => ?_) (fun a b => ?_) _
    · simp only [Bool.not_eq_true', decide_eq_false_iff_not, Label.before_iff_key_lt, not_lt] at *
      exact first.trans second
    · simp only [Bool.or_eq_true, Bool.not_eq_true', decide_eq_false_iff_not,
        Label.before_iff_key_lt, not_lt]
      exact le_total a.key b.key
  have distinct := List.pairwise_map.mp t.distinct_ordered
  refine (sorted.and distinct).imp fun {a b} both => ?_
  obtain ⟨notLate, different⟩ := both
  exact Label.before_of_not_before different.symm (by simpa using notLate)

/-- There is only one order in which each label comes before the next one. -/
theorem ordered_unique {t : LabelTable} {listing : List Label} (listed : listing.Perm t.labels)
    (sorted : listing.Pairwise Label.Before) : t.ordered = listing := by
  refine List.Perm.eq_of_pairwise ?_ t.pairwise_ordered sorted (t.ordered_perm.trans listed.symm)
  exact fun a b _ _ first second => absurd second (Label.not_before_of_before first)

theorem eq_of_labels_eq {t u : LabelTable} (same : t.labels = u.labels) : t = u := by
  cases t
  cases u
  cases same
  rfl

/-- A table carries the proof that its names differ, so a label can be added exactly when there is
a table that holds it as well. -/
theorem add_eq_ok {t u : LabelTable} {l : Label} :
    t.add l = .ok u ↔ u.labels = t.labels ++ [l] := by
  unfold add
  split
  · rename_i first taken
    have member := List.mem_of_find?_eq_some taken
    have same : first.name = l.name := by simpa using List.find?_some taken
    simp only [reduceCtorEq, false_iff]
    intro labels
    have distinct := u.distinct
    rw [labels, List.map_append, List.nodup_append] at distinct
    exact distinct.2.2 _ (List.mem_map_of_mem member) _ (by simp) same
  · rw [Except.ok.injEq]
    constructor
    · rintro rfl
      rfl
    · exact fun labels => eq_of_labels_eq labels.symm

theorem addAll_eq_ok {t u : LabelTable} {labels : List Label} :
    t.addAll labels = .ok u ↔ u.labels = t.labels ++ labels := by
  induction labels generalizing t with
  | nil =>
    rw [addAll, Except.ok.injEq, List.append_nil]
    exact ⟨fun same => congrArg LabelTable.labels same.symm, fun same => eq_of_labels_eq same.symm⟩
  | cons l rest ih =>
    rw [addAll]
    split
    · rename_i failure failed
      simp only [reduceCtorEq, false_iff]
      intro grown
      -- Already the first label can be added, as a prefix of the grown table.
      have distinct : ((t.labels ++ [l]).map Label.name).Nodup := by
        refine List.Sublist.nodup ?_ u.distinct
        rw [grown, show t.labels ++ l :: rest = (t.labels ++ [l]) ++ rest by simp]
        exact (List.sublist_append_left _ _).map _
      have added : t.add l = .ok ⟨t.labels ++ [l], distinct⟩ := add_eq_ok.mpr rfl
      rw [failed] at added
      cases added
    · rename_i extended added
      rw [ih, add_eq_ok.mp added, List.append_assoc, List.singleton_append]

theorem merge_eq_ok {t part u : LabelTable} {offset : Int64} :
    t.merge part offset = .ok u ↔
      u.labels = t.labels ++ part.ordered.map (·.shift offset) :=
  addAll_eq_ok

/-- What a merge does is known once the labels of the part are put in order. -/
theorem merge_eq_addAll {t part : LabelTable} {offset : Int64} (labels : List Label)
    (listed : labels.Perm part.labels) (sorted : labels.Pairwise Label.Before) :
    t.merge part offset = t.addAll (labels.map (·.shift offset)) := by
  rw [merge, ordered_unique listed sorted]

theorem ofIdentifiers_eq_ok {u : LabelTable} {names : List Identifier} :
    ofIdentifiers names = .ok u ↔ u.labels = names.map fun id => ⟨id.name, 0, id.position⟩ :=
  addAll_eq_ok

theorem exists_ofIdentifiers {names : List Identifier}
    (distinct : (names.map Identifier.name).Nodup) : ∃ u, ofIdentifiers names = .ok u := by
  have labels : ((names.map fun id => (⟨id.name, 0, id.position⟩ : Label)).map
      Label.name).Nodup := by
    rwa [List.map_map]
  exact ⟨⟨_, labels⟩, ofIdentifiers_eq_ok.mpr rfl⟩

end LabelTable

end Grf
