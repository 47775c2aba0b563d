import Grf.Proofs.Columns
import Grf.Proofs.Painting

namespace Grf

namespace Text

variable {line : Bytes} {removed : Nat}

/-- The blanks that a line starts with can be taken away and put back. -/
theorem replicate_append_drop (indented : removed ≤ indent line) :
    List.replicate removed blank ++ line.drop removed = line := by
  induction line generalizing removed with
  | nil =>
    obtain rfl : removed = 0 := Nat.le_zero.mp indented
    rfl
  | cons b rest ih =>
    cases removed with
    | zero => rfl
    | succ removed =>
      by_cases isBlank : b = blank
      · subst isBlank
        rw [indent_blank] at indented
        rw [List.replicate_succ, List.cons_append, List.drop_succ_cons, ih (by omega)]
      · rw [indent_other isBlank] at indented
        omega

/-- Behind all of them there is another byte, or none. -/
theorem head?_drop_indent (line : Bytes) : (line.drop (indent line)).head? ≠ some blank := by
  induction line with
  | nil => simp
  | cons b rest ih =>
    by_cases isBlank : b = blank
    · subst isBlank
      rw [indent_blank, Nat.add_comm, List.drop_succ_cons]
      exact ih
    · rw [indent_other isBlank, List.drop_zero, List.head?_cons]
      simpa using isBlank

/-- The entries of a numbered list whose numbers are in a range stand side by side. -/
theorem filter_zipIdx {α : Type} (entries : List α) (first last start : Nat) :
    ((entries.zipIdx start).filter fun entry => first ≤ entry.2 ∧ entry.2 ≤ last) =
      ((entries.take (last + 1 - start)).drop (first - start)).zipIdx (max first start) := by
  induction entries generalizing start with
  | nil => simp
  | cons x rest ih =>
    rw [List.zipIdx_cons, List.filter_cons, ih]
    by_cases beyond : last < start
    · have none : last + 1 - start = 0 := by omega
      have noneLater : last + 1 - (start + 1) = 0 := by omega
      rw [if_neg (by simp; omega), none, noneLater]
      simp
    have taken : last + 1 - start = last + 1 - (start + 1) + 1 := by omega
    rw [taken, List.take_succ_cons]
    by_cases early : start < first
    · have dropped : first - start = first - (start + 1) + 1 := by omega
      have number : max first start = first := by omega
      have numberLater : max first (start + 1) = first := by omega
      rw [if_neg (by simp; omega), dropped, List.drop_succ_cons, number, numberLater]
    · have kept : first - start = 0 := by omega
      have keptLater : first - (start + 1) = 0 := by omega
      have number : max first start = start := by omega
      have numberLater : max first (start + 1) = start + 1 := by omega
      rw [if_pos (by simp; omega), kept, keptLater, number, numberLater, List.drop_zero,
        List.drop_zero, List.zipIdx_cons]

end Text

/-- The difference of two words that are not negative does not wrap around. -/
theorem toInt_sub_of_nonneg {x y : Int64} (first : 0 ≤ x.toInt) (second : 0 ≤ y.toInt) :
    (x - y).toInt = x.toInt - y.toInt := by
  have upper := x.toInt_lt
  have upperSecond := y.toInt_lt
  rw [Int64.toInt_sub]
  exact Int.bmod_eq_of_le (by omega) (by omega)

namespace Position

/-- The number of the first selected line. -/
def firstLine (p : Position) : Nat :=
  p.startLine.toInt.toNat

/-- The number of the last selected line, which may be behind the end of the file. -/
def lastLine (p : Position) : Nat :=
  p.endLine.toInt.toNat

end Position

namespace Excerpt

variable {paint : Rendition → Bytes → Bytes} {palette : Palette} {read : Reader} {p : Position}
  {lines : List Bytes} {line contents : Bytes} {index : Nat}

theorem lines_of_isShowable (showable : isShowable p = true) :
    p.file ≠ "" ∧ 0 < p.firstLine ∧ p.firstLine ≤ p.lastLine ∧
      p.startLine.toInt = p.firstLine ∧ p.endLine.toInt = p.lastLine := by
  simp only [isShowable, Bool.and_eq_true, decide_eq_true_eq] at showable
  obtain ⟨⟨named, numbered⟩, ordered⟩ := showable
  have positive : 0 < p.startLine.toInt := Int64.lt_iff_toInt_lt.mp numbered
  have range := Int64.le_iff_toInt_le.mp ordered
  simp only [Position.firstLine, Position.lastLine]
  exact ⟨named, by omega, by omega, by omega, by omega⟩

/-- The common indentation is the smallest one. -/
theorem commonIndent_spec (nonempty : lines ≠ []) :
    (∃ line ∈ lines, Text.indent line = commonIndent lines) ∧
      ∀ line ∈ lines, commonIndent lines ≤ Text.indent line := by
  obtain ⟨least, found⟩ : ∃ least, (lines.map Text.indent).min? = some least := by
    rw [← Option.isSome_iff_exists, List.isSome_min?_iff]
    simpa using nonempty
  have value : commonIndent lines = least := by rw [commonIndent, found, Option.getD_some]
  obtain ⟨member, lower⟩ := List.min?_eq_some_iff.mp found
  rw [value]
  exact ⟨List.mem_map.mp member, fun line inside => lower _ (List.mem_map_of_mem inside)⟩

/-- Whatever the columns are, the marks start at a column that exists and do not end before it. -/
theorem markedColumns_ordered (p : Position) (removed : Nat) (line : Bytes)
    (isFirst isLast : Bool) :
    0 ≤ (markedColumns p removed line isFirst isLast).1.toInt ∧
      (markedColumns p removed line isFirst isLast).1.toInt ≤
        (markedColumns p removed line isFirst isLast).2.toInt := by
  have clamped (start stop : Int64) : 0 ≤ (if start < 0 then 0 else start).toInt ∧
      (if start < 0 then 0 else start).toInt ≤ (if stop < if start < 0 then 0 else start then
        if start < 0 then 0 else start else stop).toInt := by
    simp only [Int64.lt_iff_toInt_lt, apply_ite Int64.toInt, Int64.toInt_zero]
    constructor
    · split <;> omega
    · split <;> split <;> omega
  exact clamped _ _

/-- A row of marks. -/
structure Row where
  blanks : Nat
  carets : Nat
deriving DecidableEq

namespace Row

/-- The bytes of the row that are seen. -/
def visible (r : Row) : Bytes :=
  List.replicate r.blanks Text.blank ++ List.replicate r.carets Text.caret

/-- The row as it is sent to a terminal. -/
def text (palette : Palette) (r : Row) : Bytes :=
  List.replicate r.blanks Text.blank ++
    palette.frame .alarm (List.replicate r.carets Text.caret)

end Row

/-- The marks under a line. Both counts are exact: neither of the numbers they are taken from is
negative. -/
def marks (p : Position) (removed : Nat) (line : Bytes) (isFirst isLast : Bool) : Row :=
  let columns := markedColumns p removed line isFirst isLast
  ⟨columns.1.toInt.toNat, (columns.2 - columns.1).toInt.toNat⟩

theorem marks_exact (p : Position) (removed : Nat) (line : Bytes) (isFirst isLast : Bool) :
    (markedColumns p removed line isFirst isLast).1.toInt =
        (marks p removed line isFirst isLast).blanks ∧
      ((markedColumns p removed line isFirst isLast).2 -
          (markedColumns p removed line isFirst isLast).1).toInt =
        (marks p removed line isFirst isLast).carets := by
  obtain ⟨start, ordered⟩ := markedColumns_ordered p removed line isFirst isLast
  have length := toInt_sub_of_nonneg (Int.le_trans start ordered) start
  simp only [marks]
  omega

/-- A line of an excerpt: its number, what is left of it, and the marks under it. -/
structure Entry where
  number : Nat
  text : Bytes
  row : Row

namespace Entry

/-- The entry as it is sent to a terminal. -/
def print (palette : Palette) (width : Nat) (e : Entry) : Bytes :=
  let digits := toString e.number
  palette.frame .information
      (Text.bytes digits ++ List.replicate (width - digits.length) Text.blank) ++
    Text.bytes "|  " ++ e.text ++ [Text.lineFeed] ++
    List.replicate width Text.blank ++ Text.bytes "|  " ++ e.row.text palette ++ [Text.lineFeed]

end Entry

/-- The entry for one of the selected lines. -/
def entryOf (p : Position) (removed index count : Nat) (line : Bytes) : Entry :=
  ⟨p.firstLine + index, line.drop removed,
    marks p removed line (index = 0) (index + 1 = count)⟩

theorem toString_number (showable : isShowable p = true) (inside : p.firstLine + index ≤ p.lastLine) :
    toString (p.startLine + Int64.ofNat index) = toString (p.firstLine + index) := by
  obtain ⟨_, _, _, first, last⟩ := lines_of_isShowable showable
  have upper := p.endLine.toInt_lt
  have offset : (Int64.ofNat index).toInt = index := Int64.toInt_ofNat_of_lt (by omega)
  have number : (p.startLine + Int64.ofNat index).toInt = (p.firstLine + index : Nat) := by
    rw [Int64.toInt_add, offset, first]
    exact Int.bmod_eq_of_le (by omega) (by omega)
  show toString (p.startLine + Int64.ofNat index).toInt = _
  rw [number]
  rfl

theorem paint_number (paintsPlain : palette.PaintsPlain paint) (width number : Nat) :
    paint .information
        (Text.bytes (toString number ++ Text.blanks (width - (toString number).length))) =
      palette.frame .information (Text.bytes (toString number) ++
        List.replicate (width - (toString number).length) Text.blank) := by
  rw [Text.bytes_append, Text.bytes_blanks]
  exact paintsPlain _ _ ((Text.isPlain_number _).append (Text.isPlain_replicate (by decide) _))

theorem showLine_eq (paintsPlain : palette.PaintsPlain paint) (showable : isShowable p = true)
    (inside : p.firstLine + index ≤ p.lastLine) (removed count : Nat) (line : Bytes) :
    showLine paint p removed index count line =
      (entryOf p removed index count line).print palette (numberWidth p) := by
  have carets (n : Nat) : paint .alarm (List.replicate n Text.caret) =
      palette.frame .alarm (List.replicate n Text.caret) :=
    paintsPlain _ _ (Text.isPlain_replicate (by decide) n)
  rw [showLine]
  simp only [numberText, toString_number showable inside, paint_number paintsPlain, carets]
  simp only [Entry.print, entryOf, marks, Row.text, List.append_assoc]

/-- The entries as they are sent to a terminal. -/
def page (palette : Palette) (p : Position) (entries : List Entry) : Bytes :=
  [Text.lineFeed] ++ (entries.map (Entry.print palette (numberWidth p))).flatten ++
    [Text.lineFeed]

/-- The lines of a text can be read up to the one after the selection, and some are selected. -/
structure Legible (p : Position) (contents : Bytes) : Prop where
  short : ∀ line ∈ (Text.lines contents).take (p.lastLine + 1), line.length < lineLimit
  reached : p.firstLine ≤ (Text.lines contents).length

/-- The lines of a text in the range of a position, each with its number. -/
def rangeOf (p : Position) (contents : Bytes) : List (Bytes × Nat) :=
  ((Text.lines contents).zipIdx 1).filter fun entry =>
    p.firstLine ≤ entry.2 ∧ entry.2 ≤ p.lastLine

theorem selectLines_of_short (short : ∀ line ∈ (Text.lines contents).take (p.lastLine + 1),
    line.length < lineLimit) :
    selectLines contents p = (((Text.lines contents).take p.lastLine).drop (p.firstLine - 1)).map
      fun line => Text.expandTabs (Text.dropReturn line) := by
  have readable : ((Text.lines contents).take (p.lastLine + 1)).any
      (fun line => decide (lineLimit ≤ line.length)) = false := by
    rw [List.any_eq_false]
    intro line member
    have bound := short line member
    simpa using bound
  rw [selectLines]
  rw [← Position.lastLine, ← Position.firstLine, readable, if_neg Bool.false_ne_true]

theorem selectLines_of_long (member : line ∈ (Text.lines contents).take (p.lastLine + 1))
    (long : lineLimit ≤ line.length) : selectLines contents p = [] := by
  rw [selectLines]
  refine if_pos ?_
  rw [List.any_eq_true]
  exact ⟨line, member, by simpa using long⟩

theorem selectLines_ne_nil_iff (showable : isShowable p = true) :
    selectLines contents p ≠ [] ↔ Legible p contents := by
  obtain ⟨_, positive, ordered, _⟩ := lines_of_isShowable showable
  by_cases short : ∀ line ∈ (Text.lines contents).take (p.lastLine + 1),
      line.length < lineLimit
  · have selected := selectLines_of_short short
    constructor
    · intro nonempty
      refine ⟨short, ?_⟩
      by_contra beyond
      refine nonempty ?_
      rw [selected, List.drop_eq_nil_of_le (by rw [List.length_take]; omega), List.map_nil]
    · rintro ⟨_, reached⟩ empty
      have length := congrArg List.length (selected.symm.trans empty)
      rw [List.length_map, List.length_drop, List.length_take, List.length_nil] at length
      omega
  · refine iff_of_false (fun nonempty => ?_) fun legible => short legible.short
    push Not at short
    obtain ⟨line, member, long⟩ := short
    exact nonempty (selectLines_of_long member long)

/-- The selected lines with the numbers of the first one and of those after it. -/
theorem zipIdx_selectLines (showable : isShowable p = true) (legible : Legible p contents) :
    (selectLines contents p).zipIdx p.firstLine =
      (rangeOf p contents).map fun entry => (Text.expandTabs (Text.dropReturn entry.1), entry.2) := by
  obtain ⟨_, positive, _⟩ := lines_of_isShowable showable
  have number : max p.firstLine 1 = p.firstLine := by omega
  rw [rangeOf, Text.filter_zipIdx, Nat.add_sub_cancel, number, selectLines_of_short legible.short,
    List.zipIdx_map]
  rfl

/-- The entries show the lines in the range of a position. -/
structure Depicts (p : Position) (contents : Bytes) (removed : Nat) (entries : List Entry) :
    Prop where
  /-- With the blanks put back they are the lines themselves, in order and with their numbers. -/
  lines : (entries.map fun e => (List.replicate removed Text.blank ++ e.text, e.number)) =
    (rangeOf p contents).map fun entry => (Text.expandTabs (Text.dropReturn entry.1), entry.2)
  /-- No more blanks could be taken away from all of them. -/
  flush : ∃ e ∈ entries, e.text.head? ≠ some Text.blank
  removed_eq : removed = commonIndent (selectLines contents p)
  /-- The cut is within the line, and the lengths of its marks are not negative. -/
  safe : ∀ index line, (selectLines contents p)[index]? = some line →
    ∃ e, entries[index]? = some e ∧ removed ≤ line.length ∧
      (markedColumns p removed line (index = 0) (index + 1 = entries.length)).1.toInt =
        e.row.blanks ∧
      ((markedColumns p removed line (index = 0) (index + 1 = entries.length)).2 -
          (markedColumns p removed line (index = 0) (index + 1 = entries.length)).1).toInt =
        e.row.carets

/-- The entries for the selected lines of a text. -/
def entriesOf (p : Position) (contents : Bytes) : List Entry :=
  (selectLines contents p).mapIdx fun index line =>
    entryOf p (commonIndent (selectLines contents p)) index (selectLines contents p).length line

theorem getElem?_entriesOf (p : Position) (contents : Bytes) (index : Nat) :
    (entriesOf p contents)[index]? = (selectLines contents p)[index]?.map
      (entryOf p (commonIndent (selectLines contents p)) index (selectLines contents p).length) :=
  List.getElem?_mapIdx

theorem length_selectLines (contents : Bytes) (p : Position) :
    (selectLines contents p).length ≤ p.lastLine - (p.firstLine - 1) := by
  by_cases short : ∀ line ∈ (Text.lines contents).take (p.lastLine + 1),
      line.length < lineLimit
  · rw [selectLines_of_short short, List.length_map, List.length_drop, List.length_take]
    omega
  · push Not at short
    obtain ⟨line, member, long⟩ := short
    rw [selectLines_of_long member long]
    exact Nat.zero_le _

theorem showText_eq (paintsPlain : palette.PaintsPlain paint) (showable : isShowable p = true)
    (nonempty : selectLines contents p ≠ []) :
    showText paint contents p = page palette p (entriesOf p contents) := by
  obtain ⟨_, positive, ordered, _⟩ := lines_of_isShowable showable
  have length := length_selectLines contents p
  have rows : ((selectLines contents p).mapIdx fun index line => showLine paint p
      (commonIndent (selectLines contents p)) index (selectLines contents p).length line) =
      (entriesOf p contents).map (Entry.print palette (numberWidth p)) := by
    refine List.ext_getElem? fun index => ?_
    rw [List.getElem?_mapIdx, List.getElem?_map, getElem?_entriesOf, Option.map_map]
    refine Option.map_congr fun line found => ?_
    have inside := (List.getElem?_eq_some_iff.mp found).1
    exact showLine_eq paintsPlain showable (by omega) _ _ _
  rw [showText, page, ← rows]
  split
  · rename_i empty
    exact absurd empty nonempty
  · rfl

theorem depicts_entriesOf (showable : isShowable p = true) (legible : Legible p contents) :
    Depicts p contents (commonIndent (selectLines contents p)) (entriesOf p contents) := by
  have nonempty := (selectLines_ne_nil_iff showable).mpr legible
  obtain ⟨⟨least, member, equal⟩, lower⟩ := commonIndent_spec nonempty
  constructor
  · rw [← zipIdx_selectLines showable legible]
    refine List.ext_getElem? fun index => ?_
    rw [List.getElem?_map, getElem?_entriesOf, Option.map_map, List.getElem?_zipIdx]
    refine Option.map_congr fun line found => ?_
    have indented := lower line (List.mem_of_getElem? found)
    exact Prod.ext (Text.replicate_append_drop indented) rfl
  · obtain ⟨index, found⟩ := List.getElem?_of_mem member
    have entry := getElem?_entriesOf p contents index
    rw [found, Option.map_some] at entry
    refine ⟨_, List.mem_of_getElem? entry, ?_⟩
    rw [entryOf, ← equal]
    exact Text.head?_drop_indent least
  · rfl
  · intro index line found
    have entry := getElem?_entriesOf p contents index
    rw [found, Option.map_some] at entry
    have length : (entriesOf p contents).length = (selectLines contents p).length :=
      List.length_mapIdx
    have indented := lower line (List.mem_of_getElem? found)
    have inside := Text.indent_le line
    rw [length]
    exact ⟨_, entry, by omega, marks_exact _ _ _ _ _⟩

theorem ofPosition_eq_showText (showable : isShowable p = true) (found : read p.file = .ok contents) :
    ofPosition paint read p = showText paint contents p := by
  rw [ofPosition, if_pos showable, found]

theorem ofPosition_legible (paintsPlain : palette.PaintsPlain paint) (showable : isShowable p = true)
    (found : read p.file = .ok contents) (legible : Legible p contents) :
    ofPosition paint read p = page palette p (entriesOf p contents) := by
  rw [ofPosition_eq_showText showable found]
  exact showText_eq paintsPlain showable ((selectLines_ne_nil_iff showable).mpr legible)

theorem ofPosition_illegible (hidden : ∀ contents, isShowable p = true →
    read p.file = .ok contents → ¬ Legible p contents) : ofPosition paint read p = [] := by
  rw [ofPosition]
  split
  · rename_i showable
    split
    · rename_i contents found
      have empty : selectLines contents p = [] := by
        by_contra nonempty
        exact hidden contents showable found ((selectLines_ne_nil_iff showable).mp nonempty)
      rw [showText, empty]
    · rfl
  · rfl

/-- An excerpt is well formed whatever the file holds and whatever the columns are. It is empty if the
position has no lines, the file cannot be read, a line up to the one after the range is too long, or
the file ends before the range. Otherwise it shows exactly the lines of the range, with expanded tabs
and less the blanks that all of them start with, each with its number. -/
theorem ofPosition_wellFormed (paintsPlain : palette.PaintsPlain paint) (read : Reader)
    (p : Position) :
    (ofPosition paint read p = [] ∧ ∀ contents, isShowable p = true →
      read p.file = .ok contents → ¬ Legible p contents) ∨
    ∃ contents removed entries, isShowable p = true ∧ read p.file = .ok contents ∧
      Legible p contents ∧ ofPosition paint read p = page palette p entries ∧
      Depicts p contents removed entries := by
  by_cases hidden : ∀ contents, isShowable p = true → read p.file = .ok contents →
      ¬ Legible p contents
  · exact Or.inl ⟨ofPosition_illegible hidden, hidden⟩
  · push Not at hidden
    obtain ⟨contents, showable, found, legible⟩ := hidden
    exact Or.inr ⟨contents, _, _, showable, found, legible,
      ofPosition_legible paintsPlain showable found legible, depicts_entriesOf showable legible⟩

/-- A tree with one file, seen from a directory below the root. -/
def soleFile (path : List String) (contents : Bytes) : FileTree where
  home := ["home"]
  entries := [(path, .file contents)]

/-- A set of one sprite. -/
def crate : Bytes :=
  Text.bytes "spriteset(s) \x7b\n    [0, 0, 8, 8]\n\x7d\n"

def crateSpot : Position :=
  .ofLine "/tmp/sets.nml" 2 4 12

/-- The file is not in the working directory. Its second line is shown without the blanks before it. -/
theorem ofPosition_wellFormed_crate :
    Terminal.palette.PaintsPlain Terminal.paint ∧
    (soleFile ["tmp", "sets.nml"] crate).read "/tmp/sets.nml" = .ok crate ∧
    ofPosition Terminal.paint (soleFile ["tmp", "sets.nml"] crate).read crateSpot =
      Text.bytes "\n\x1b[92m2 \x1b[0m|  [0, 0, 8, 8]\n  |  \x1b[31m^^^^^^^^^^^^\x1b[0m\n\n" ∧
    ∃ entries, ofPosition Terminal.paint (soleFile ["tmp", "sets.nml"] crate).read crateSpot =
        page Terminal.palette crateSpot entries ∧
      Depicts crateSpot crate 4 entries := by
  have text : (soleFile ["tmp", "sets.nml"] crate).read "/tmp/sets.nml" = .ok crate := rfl
  have shown : ofPosition Terminal.paint (soleFile ["tmp", "sets.nml"] crate).read crateSpot =
      Text.bytes "\n\x1b[92m2 \x1b[0m|  [0, 0, 8, 8]\n  |  \x1b[31m^^^^^^^^^^^^\x1b[0m\n\n" := by
    decide +kernel
  refine ⟨Terminal.paint_plain, text, shown, ?_⟩
  rcases ofPosition_wellFormed Terminal.paint_plain
      (soleFile ["tmp", "sets.nml"] crate).read crateSpot with
    ⟨empty, _⟩ | ⟨contents, removed, entries, _, found, _, printed, depicts⟩
  · rw [shown] at empty
    exact absurd empty (by decide +kernel)
  · obtain rfl : crate = contents := Except.ok.inj (text.symm.trans found)
    obtain rfl : removed = 4 := depicts.removed_eq.trans (by decide +kernel)
    exact ⟨entries, printed, depicts⟩

end Excerpt

end Grf
