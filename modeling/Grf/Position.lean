namespace Grf

/-- A stretch of source text. Lines count from one and columns count bytes from
zero; the end column is one past the last byte. -/
structure Position where
  file : String
  startLine : Int64
  startColumn : Int64
  endLine : Int64
  endColumn : Int64
deriving DecidableEq

namespace Position

/-- The `length` bytes of `line` that start at `column`. -/
def ofLine (file : String) (line column length : Int64) : Position :=
  ⟨file, line, column, line, column + length⟩

/-- From the start of `first` to the end of `last`, in the file of `first`. -/
def span (first last : Position) : Position :=
  ⟨first.file, first.startLine, first.startColumn, last.endLine, last.endColumn⟩

/-- File, line and column of the start, the column counted from one for the reader. -/
def text (p : Position) : String :=
  p.file ++ ":" ++ toString p.startLine ++ ":" ++ toString (p.startColumn + 1)

/-- The text of a position that may be missing. -/
def describe : Option Position → String
  | none => "<unknown position>"
  | some p => p.text

end Position

end Grf
