import Grf.Excerpt
import Mathlib.Data.List.Count

namespace Grf.Text

variable {line : Bytes} {first last n start column origin : Nat}

theorem expandTabs_tab (rest : Bytes) :
    expandTabs (tab :: rest) = [blank, blank, blank, blank] ++ expandTabs rest :=
  rfl

theorem expandTabs_other {b : UInt8} (other : b ≠ tab) (rest : Bytes) :
    expandTabs (b :: rest) = b :: expandTabs rest := by
  rw [expandTabs, List.flatMap_cons, if_neg other, List.singleton_append, ← expandTabs]

theorem length_expandTabs (line : Bytes) :
    (expandTabs line).length = line.length + 3 * line.count tab := by
  induction line with
  | nil => rfl
  | cons b rest ih =>
    by_cases isTab : b = tab
    · subst isTab
      have blanks : [blank, blank, blank, blank].length = 4 := rfl
      rw [expandTabs_tab, List.length_append, blanks, ih, List.length_cons, List.count_cons_self]
      omega
    · rw [expandTabs_other isTab, List.length_cons, List.length_cons, ih,
        List.count_cons_of_ne isTab]
      omega

theorem length_expandTabs_le (line : Bytes) : (expandTabs line).length ≤ 4 * line.length := by
  have tabs : line.count tab ≤ line.length := List.count_le_length
  rw [length_expandTabs]
  omega

theorem indent_le (line : Bytes) : indent line ≤ line.length :=
  (List.takeWhile_sublist _).length_le

theorem indent_blank (rest : Bytes) : indent (blank :: rest) = 1 + indent rest := by
  rw [indent, List.takeWhile_cons_of_pos (by decide), List.length_cons, ← indent, Nat.add_comm]

theorem indent_tab (rest : Bytes) :
    indent (expandTabs (tab :: rest)) = 4 + indent (expandTabs rest) := by
  have blanks : expandTabs (tab :: rest) = blank :: blank :: blank :: blank :: expandTabs rest := rfl
  rw [blanks, indent_blank, indent_blank, indent_blank, indent_blank]
  omega

theorem indent_other {b : UInt8} (other : b ≠ blank) (rest : Bytes) : indent (b :: rest) = 0 := by
  rw [indent, List.takeWhile_cons_of_neg (by simpa using other), List.length_nil]

/-- For every byte of a line with expanded tabs, the number of the byte of the line that it stems
from. The bytes of the line are counted from `start`. -/
def origins (start : Nat) : Bytes → List Nat
  | [] => []
  | b :: rest => (if b = tab then List.replicate 4 start else [start]) ++ origins (start + 1) rest

/-- The column at which a byte of the line is shown: a tab before it takes four of them. -/
def columnOf (n : Nat) (line : Bytes) : Nat :=
  n + 3 * (line.take n).count tab

theorem origins_tab (start : Nat) (rest : Bytes) :
    origins start (tab :: rest) = List.replicate 4 start ++ origins (start + 1) rest :=
  rfl

theorem origins_other {b : UInt8} (other : b ≠ tab) (start : Nat) (rest : Bytes) :
    origins start (b :: rest) = start :: origins (start + 1) rest := by
  rw [origins, if_neg other, List.singleton_append]

theorem length_origins (start : Nat) (line : Bytes) :
    (origins start line).length = (expandTabs line).length := by
  induction line generalizing start with
  | nil => rfl
  | cons b rest ih =>
    by_cases isTab : b = tab
    · subst isTab
      rw [origins_tab, expandTabs_tab, List.length_append, List.length_append, ih,
        List.length_replicate]
      rfl
    · rw [origins_other isTab, expandTabs_other isTab, List.length_cons, List.length_cons, ih]

theorem start_le_origin (found : (origins start line)[column]? = some origin) :
    start ≤ origin := by
  induction line generalizing start column with
  | nil => cases found
  | cons b rest ih =>
    rcases List.mem_append.mp (List.mem_of_getElem? found) with here | later
    · split at here
      · exact Nat.le_of_eq (List.eq_of_mem_replicate here).symm
      · exact Nat.le_of_eq (List.mem_singleton.mp here).symm
    · obtain ⟨place, atPlace⟩ := List.getElem?_of_mem later
      exact Nat.le_of_succ_le (ih atPlace)

/-- Bytes come in order, so those before a given byte fill the columns before the one it is shown
at. -/
theorem origin_lt_iff (inside : n ≤ line.length)
    (found : (origins start line)[column]? = some origin) :
    origin < start + n ↔ column < columnOf n line := by
  induction line generalizing start n column with
  | nil => cases found
  | cons b rest ih =>
    cases n with
    | zero =>
      have bound := start_le_origin found
      rw [columnOf, List.take_zero, List.count_nil]
      omega
    | succ n =>
      rw [List.length_cons] at inside
      have later := @ih n (start + 1)
      rw [columnOf, List.take_succ_cons]
      by_cases isTab : b = tab
      · subst isTab
        rw [origins_tab] at found
        rw [List.count_cons_self]
        by_cases early : column < 4
        · rw [List.getElem?_append_left (by simpa using early),
            List.getElem?_replicate_of_lt early] at found
          cases found
          omega
        · rw [List.getElem?_append_right (by simp; omega), List.length_replicate] at found
          have rest := later (by omega) found
          rw [columnOf] at rest
          omega
      · rw [origins_other isTab] at found
        rw [List.count_cons_of_ne isTab]
        cases column with
        | zero =>
          cases found
          omega
        | succ column =>
          have rest := later (by omega) found
          rw [columnOf] at rest
          omega

theorem columnOf_le (inside : n ≤ line.length) : columnOf n line ≤ (expandTabs line).length := by
  have tabs := (List.take_sublist n line).count_le tab
  rw [columnOf, length_expandTabs]
  omega

/-- The column shown at the end of the first bytes lies in the indentation just as long as there is
nothing but blanks and tabs. -/
theorem columnOf_le_indent_iff (inside : n ≤ line.length) :
    columnOf n line ≤ indent (expandTabs line) ↔ ∀ b ∈ line.take n, b = blank ∨ b = tab := by
  induction line generalizing n with
  | nil =>
    obtain rfl : n = 0 := Nat.le_zero.mp inside
    simp [columnOf]
  | cons b rest ih =>
    cases n with
    | zero => simp [columnOf]
    | succ n =>
      rw [List.length_cons] at inside
      have later := @ih n (by omega)
      rw [columnOf, List.take_succ_cons, List.forall_mem_cons]
      by_cases isTab : b = tab
      · subst isTab
        rw [and_iff_right (Or.inr rfl), ← later, columnOf, indent_tab, List.count_cons_self]
        omega
      · rw [expandTabs_other isTab, List.count_cons_of_ne isTab]
        by_cases isBlank : b = blank
        · subst isBlank
          rw [and_iff_right (Or.inl rfl), ← later, columnOf, indent_blank]
          omega
        · rw [indent_other isBlank]
          refine iff_of_false (by omega) fun all => ?_
          exact all.1.elim isBlank isTab

/-- The column of the dedented line stems from one of the bytes from `first` up to `last`. -/
def Stems (line : Bytes) (first last column : Nat) : Prop :=
  ∃ origin, (origins 0 line)[indent (expandTabs line) + column]? = some origin ∧
    first ≤ origin ∧ origin < last

theorem stems_iff (ordered : first ≤ last) (inside : last ≤ line.length) :
    Stems line first last column ↔ columnOf first line ≤ indent (expandTabs line) + column ∧
      indent (expandTabs line) + column < columnOf last line := by
  constructor
  · rintro ⟨origin, found, lower, upper⟩
    have before := origin_lt_iff (Nat.le_trans ordered inside) found
    have within := origin_lt_iff inside found
    omega
  · rintro ⟨lower, upper⟩
    have bound := columnOf_le inside
    obtain ⟨origin, found⟩ : ∃ origin,
        (origins 0 line)[indent (expandTabs line) + column]? = some origin := by
      refine ⟨_, List.getElem?_eq_getElem ?_⟩
      rw [length_origins]
      omega
    have before := origin_lt_iff (Nat.le_trans ordered inside) found
    have within := origin_lt_iff inside found
    exact ⟨origin, found, by omega, by omega⟩

/-- Marks that do not count the tabs are at their places only if there is nothing to be marked, or no
tab up to the last byte. -/
theorem unexpanded_iff (ordered : first ≤ last) (inside : last ≤ line.length) :
    (∀ column, first ≤ indent (expandTabs line) + column ∧
        indent (expandTabs line) + column < last ↔ Stems line first last column) ↔
    first = last ∨ (∀ b ∈ line.take last, b = blank ∨ b = tab) ∨ tab ∉ line.take last := by
  have tabs := (List.take_sublist_take_left (l := line) ordered).count_le tab
  have tabless := List.count_eq_zero (a := tab) (l := line.take last)
  rw [← columnOf_le_indent_iff inside, ← tabless]
  simp only [stems_iff ordered inside]
  simp only [columnOf]
  constructor
  · intro agree
    -- The last column that should be marked is beyond the marks, unless one of the three holds.
    have beyond := agree (last + 3 * (line.take last).count tab - 1 - indent (expandTabs line))
    omega
  · rintro (rfl | hidden | none) column
    · omega
    · omega
    · omega

end Grf.Text
