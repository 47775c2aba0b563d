import Grf.Proofs.Excerpts
import Mathlib.Algebra.Order.Ring.Nat

namespace Grf

theorem Text.length_dropReturn_le (line : Bytes) : (dropReturn line).length ≤ line.length := by
  rw [dropReturn]
  split
  · exact (List.dropLast_sublist line).length_le
  · exact Nat.le_refl _

namespace Position

/-- The number of the first byte that a position on one line selects. -/
def firstByte (p : Position) : Nat :=
  p.startColumn.toInt.toNat

/-- The number of the first byte after those that it selects. -/
def endByte (p : Position) : Nat :=
  p.endColumn.toInt.toNat

end Position

namespace Excerpt

variable {paint : Rendition → Bytes → Bytes} {palette : Palette} {read : Reader} {p : Position}
  {line contents raw : Bytes} {removed column : Nat}

/-- The position selects bytes of a single line of a file that has a name, and all lines of the file
up to the next one can be read. -/
structure Selects (read : Reader) (p : Position) (line : Bytes) : Prop where
  named : p.file ≠ ""
  read : ∃ contents raw, read p.file = .ok contents ∧
    (Text.lines contents)[p.firstLine - 1]? = some raw ∧ line = Text.dropReturn raw ∧
    ∀ other ∈ (Text.lines contents).take (p.firstLine + 1), other.length < lineLimit
  single : p.endLine = p.startLine
  numbered : 0 < p.startLine
  start : 0 ≤ p.startColumn
  ordered : p.startColumn ≤ p.endColumn
  inside : p.endColumn.toInt ≤ line.length

namespace Selects

theorem isShowable (selects : Selects read p line) : isShowable p = true := by
  have ordered : p.startLine ≤ p.endLine := by
    rw [selects.single]
    exact Int64.le_refl _
  simp [Excerpt.isShowable, selects.named, selects.numbered, ordered]

theorem bytes (selects : Selects read p line) :
    p.startColumn.toInt = p.firstByte ∧ p.endColumn.toInt = p.endByte ∧
      p.firstByte ≤ p.endByte ∧ p.endByte ≤ line.length := by
  have start : 0 ≤ p.startColumn.toInt := Int64.le_iff_toInt_le.mp selects.start
  have ordered := Int64.le_iff_toInt_le.mp selects.ordered
  have inside := selects.inside
  simp only [Position.firstByte, Position.endByte]
  omega

theorem short (selects : Selects read p line) :
    (Text.expandTabs line).length < 4 * lineLimit := by
  obtain ⟨contents, raw, _, found, rfl, readable⟩ := selects.read
  have bound := readable raw (List.mem_of_getElem? (i := p.firstLine - 1) (by
    rw [List.getElem?_take_of_lt (by omega), found]))
  have cut := Text.length_dropReturn_le raw
  have wide := Text.length_expandTabs_le (Text.dropReturn raw)
  omega

end Selects

theorem Row.visible_eq_caret (r : Row) :
    r.visible[column]? = some Text.caret ↔ r.blanks ≤ column ∧ column < r.blanks + r.carets := by
  rw [visible]
  by_cases early : column < r.blanks
  · rw [List.getElem?_append_left (by simpa using early), List.getElem?_replicate_of_lt early]
    exact iff_of_false (by decide) (by omega)
  · rw [List.getElem?_append_right (by simpa using early), List.length_replicate,
      List.getElem?_replicate]
    split
    · exact iff_of_true rfl (by omega)
    · exact iff_of_false (by simp) (by omega)

/-- The row that is printed for a position on one line from which `removed` blanks were taken. The
columns of the position are taken for columns of the line as it is shown. -/
def rowOf (p : Position) (removed : Nat) : Row :=
  ⟨p.firstByte - removed, p.endByte - removed - (p.firstByte - removed)⟩

theorem markedColumns_single {first last : Nat} (start : p.startColumn.toInt = first)
    (stop : p.endColumn.toInt = last) (ordered : first ≤ last) (inside : last ≤ line.length)
    (indented : removed ≤ line.length) (short : line.length < 2 ^ 63) :
    (markedColumns p removed line true true).1.toInt = (first - removed : Nat) ∧
      (markedColumns p removed line true true).2.toInt = max (last - removed) (first - removed) := by
  have taken : (Int64.ofNat removed).toInt = removed := Int64.toInt_ofNat_of_lt (by omega)
  have whole : (Int64.ofNat line.length).toInt = line.length := Int64.toInt_ofNat_of_lt short
  have atStart : (p.startColumn - Int64.ofNat removed).toInt = first - removed := by
    rw [toInt_sub_of_nonneg (by omega) (by omega), start, taken]
  have atStop : (p.endColumn - Int64.ofNat removed).toInt = last - removed := by
    rw [toInt_sub_of_nonneg (by omega) (by omega), stop, taken]
  have atEnd : (Int64.ofNat line.length - Int64.ofNat removed).toInt = line.length - removed := by
    rw [toInt_sub_of_nonneg (by omega) (by omega), whole, taken]
  simp only [markedColumns, if_true, true_and, Int64.lt_iff_toInt_lt, apply_ite Int64.toInt, atStart,
    atStop, atEnd, Int64.toInt_zero]
  constructor
  · split <;> omega
  · split <;> split <;> split <;> omega

theorem marks_single (selects : Selects read p line) :
    marks p (Text.indent (Text.expandTabs line)) (Text.expandTabs line) true true =
      rowOf p (Text.indent (Text.expandTabs line)) := by
  obtain ⟨start, stop, ordered, inside⟩ := selects.bytes
  have wider := Text.length_expandTabs line
  have short : (Text.expandTabs line).length < 2 ^ 63 := Nat.lt_trans selects.short (by decide)
  obtain ⟨first, last⟩ := markedColumns_single start stop ordered (by omega)
    (Text.indent_le (Text.expandTabs line)) short
  -- The counts of the row are those two columns, from which no sign can be lost.
  obtain ⟨blanks, carets⟩ :=
    marks_exact p (Text.indent (Text.expandTabs line)) (Text.expandTabs line) true true
  rw [toInt_sub_of_nonneg (by omega) (by omega)] at carets
  generalize marks p _ _ true true = row at blanks carets ⊢
  obtain ⟨left, length⟩ := row
  dsimp only at blanks carets
  simp only [rowOf, Row.mk.injEq]
  omega

theorem rowOf_marks (p : Position) (ordered : p.firstByte ≤ p.endByte) :
    (rowOf p removed).visible[column]? = some Text.caret ↔
      p.firstByte ≤ removed + column ∧ removed + column < p.endByte := by
  rw [Row.visible_eq_caret]
  simp only [rowOf]
  omega

/-- The line of a position as it is shown, without its indentation, and a row under it. -/
def lineOf (p : Position) (line : Bytes) (row : Row) : Entry :=
  ⟨p.firstLine, (Text.expandTabs line).drop (Text.indent (Text.expandTabs line)), row⟩

theorem selectLines_single (found : (Text.lines contents)[p.firstLine - 1]? = some raw)
    (short : ∀ other ∈ (Text.lines contents).take (p.firstLine + 1), other.length < lineLimit)
    (single : p.lastLine = p.firstLine) (positive : 0 < p.firstLine) :
    selectLines contents p = [Text.expandTabs (Text.dropReturn raw)] := by
  obtain ⟨inside, here⟩ := List.getElem?_eq_some_iff.mp found
  have one : p.firstLine - (p.firstLine - 1) = 1 := by omega
  rw [selectLines_of_short (by rwa [single]), single, List.drop_take, one,
    List.drop_eq_getElem_cons inside, here]
  rfl

/-- The columns of the position are used as if they were columns of the line with expanded tabs. -/
theorem ofPosition_single (paintsPlain : palette.PaintsPlain paint) (selects : Selects read p line) :
    ofPosition paint read p =
      page palette p [lineOf p line (rowOf p (Text.indent (Text.expandTabs line)))] := by
  have row := marks_single selects
  have single : p.lastLine = p.firstLine := by
    rw [Position.lastLine, selects.single, Position.firstLine]
  obtain ⟨_, positive, _⟩ := lines_of_isShowable selects.isShowable
  obtain ⟨contents, raw, read, found, rfl, readable⟩ := selects.read
  have lines := selectLines_single found readable single positive
  have entries : entriesOf p contents = [lineOf p (Text.dropReturn raw)
      (marks p (Text.indent (Text.expandTabs (Text.dropReturn raw)))
        (Text.expandTabs (Text.dropReturn raw)) true true)] := by
    rw [entriesOf, lines]
    rfl
  rw [ofPosition_eq_showText selects.isShowable read,
    showText_eq paintsPlain selects.isShowable (by rw [lines]; exact List.cons_ne_nil _ _), entries,
    row]

/-- The row under a line marks what the position selects, and nothing else, exactly if nothing is
selected, if it is all in the indentation, or if there is no tab up to its end. A tab in the text
before the end moves the text but not the marks. -/
theorem ofPosition_marks (paintsPlain : palette.PaintsPlain paint) (selects : Selects read p line) :
    ∃ row, ofPosition paint read p = page palette p [lineOf p line row] ∧
      (∀ column, row.visible[column]? = some Text.caret ↔
        p.firstByte ≤ Text.indent (Text.expandTabs line) + column ∧
          Text.indent (Text.expandTabs line) + column < p.endByte) ∧
      ((∀ column, row.visible[column]? = some Text.caret ↔
          Text.Stems line p.firstByte p.endByte column) ↔
        p.firstByte = p.endByte ∨
          (∀ b ∈ line.take p.endByte, b = Text.blank ∨ b = Text.tab) ∨
          Text.tab ∉ line.take p.endByte) := by
  obtain ⟨_, _, ordered, inside⟩ := selects.bytes
  refine ⟨_, ofPosition_single paintsPlain selects, fun _ => rowOf_marks p ordered, ?_⟩
  simp only [rowOf_marks p ordered]
  exact Text.unexpanded_iff ordered inside

/-- A file of one line in the working directory. -/
def desk (line : Bytes) : FileTree :=
  soleFile ["home", "a.nml"] (line ++ [Text.lineFeed])

/-- The line is indented by two blanks, and the byte after them stands for no character. -/
def memo : Bytes :=
  [32, 32, 255] ++ Text.bytes " = y;"

def memoSpot : Position :=
  .ofLine "a.nml" 1 6 1

/-- The blanks are taken away, so `y` is shown at column 4. -/
theorem ofPosition_marks_memo :
    Terminal.palette.PaintsPlain Terminal.paint ∧ Selects (desk memo).read memoSpot memo ∧
    ∃ row, ofPosition Terminal.paint (desk memo).read memoSpot =
        page Terminal.palette memoSpot [lineOf memoSpot memo row] ∧
      row.visible[4]? = some Text.caret ∧
      ∀ column, row.visible[column]? = some Text.caret ↔ Text.Stems memo 6 7 column := by
  have selects : Selects (desk memo).read memoSpot memo :=
    ⟨by decide, ⟨memo ++ [Text.lineFeed], memo, rfl, by decide +kernel, by decide +kernel,
      by decide +kernel⟩, rfl, by decide, by decide, by decide, by decide +kernel⟩
  obtain ⟨row, shown, columns, marks⟩ := ofPosition_marks Terminal.paint_plain selects
  refine ⟨Terminal.paint_plain, selects, row, shown, (columns 4).mpr (by decide +kernel), ?_⟩
  exact marks.mpr (Or.inr (Or.inr (by decide +kernel)))

/-- The line is indented by a tab. -/
def note : Bytes :=
  Text.bytes "\tx = y;"

def noteSpot : Position :=
  .ofLine "a.nml" 1 5 1

/-- The tab is shown as four blanks, all of which are taken away, but it is one byte of the line. The
mark for `y` stands three columns before it. -/
theorem ofPosition_marks_note :
    Selects (desk note).read noteSpot note ∧
    ofPosition Terminal.paint (desk note).read noteSpot =
      Text.bytes "\n\x1b[92m1 \x1b[0m|  x = y;\n  |   \x1b[31m^\x1b[0m\n\n" ∧
    ofPosition Terminal.paint (desk note).read noteSpot =
      page Terminal.palette noteSpot [lineOf noteSpot note ⟨1, 1⟩] ∧
    Text.Stems note 5 6 4 ∧ (Row.visible ⟨1, 1⟩)[4]? ≠ some Text.caret ∧
    ¬ Text.Stems note 5 6 1 ∧ (Row.visible ⟨1, 1⟩)[1]? = some Text.caret := by
  have selects : Selects (desk note).read noteSpot note :=
    ⟨by decide, ⟨note ++ [Text.lineFeed], note, rfl, by decide +kernel, by decide +kernel,
      by decide +kernel⟩, rfl, by decide, by decide, by decide, by decide +kernel⟩
  have row : rowOf noteSpot (Text.indent (Text.expandTabs note)) = ⟨1, 1⟩ := by decide +kernel
  refine ⟨selects, by decide +kernel, ?_, ?_, by decide, ?_, by decide⟩
  · rw [← row]
    exact ofPosition_single Terminal.paint_plain selects
  · exact ⟨5, by decide +kernel, by decide, by decide⟩
  · rw [Text.stems_iff (by decide) (by decide +kernel)]
    decide +kernel

end Excerpt

end Grf
