import Grf.Files
import Grf.Position
import Grf.Terminal

namespace Grf.Excerpt

/-- No line of this many bytes or more can be read. -/
def lineLimit : Nat := 65536

/-- Only a position in a named file, on a range of lines that exist in some file, is shown. -/
def isShowable (p : Position) : Bool :=
  p.file ≠ "" && 0 < p.startLine && p.startLine ≤ p.endLine

/-- The selected lines with their tabs expanded. The line after the selection is read as well, and
nothing is selected if a line up to there cannot be read. -/
def selectLines (contents : Bytes) (p : Position) : List Bytes :=
  let last := p.endLine.toInt.toNat
  let all := Text.lines contents
  if (all.take (last + 1)).any fun line => lineLimit ≤ line.length then []
  else
    ((all.take last).drop (p.startLine.toInt.toNat - 1)).map fun line =>
      Text.expandTabs (Text.dropReturn line)

/-- The number of blanks that all of the lines start with. -/
def commonIndent (lines : List Bytes) : Nat :=
  ((lines.map Text.indent).min?).getD 0

/-- The columns to be marked under a line from which `removed` blanks were taken: from the start
column on the first line and up to the end column on the last one. -/
def markedColumns (p : Position) (removed : Nat) (line : Bytes) (isFirst isLast : Bool) :
    Int64 × Int64 :=
  let removed := Int64.ofNat removed
  let start := if isFirst then p.startColumn - removed else 0
  let length := Int64.ofNat line.length - removed
  let stop :=
    if isLast ∧ p.endColumn - removed < length then p.endColumn - removed else length
  let start := if start < 0 then 0 else start
  (start, if stop < start then start else stop)

/-- The width of the column of line numbers. -/
def numberWidth (p : Position) : Nat :=
  (toString p.endLine).length + 1

/-- A line number, filled up with blanks. -/
def numberText (width : Nat) (number : Int64) : String :=
  let digits := toString number
  digits ++ Text.blanks (width - digits.length)

section

variable (paint : Rendition → Bytes → Bytes)

/-- A source line and the row of marks under it. -/
def showLine (p : Position) (removed : Nat) (index count : Nat) (line : Bytes) : Bytes :=
  let width := numberWidth p
  let (start, stop) := markedColumns p removed line (index = 0) (index + 1 = count)
  paint .information (Text.bytes (numberText width (p.startLine + Int64.ofNat index))) ++
    Text.bytes "|  " ++ line.drop removed ++ [Text.lineFeed] ++
    List.replicate width Text.blank ++ Text.bytes "|  " ++
    List.replicate start.toInt.toNat Text.blank ++
    paint .alarm (List.replicate (stop - start).toInt.toNat Text.caret) ++ [Text.lineFeed]

/-- The selected lines of a text, dedented and numbered, with the selection marked. -/
def showText (contents : Bytes) (p : Position) : Bytes :=
  match selectLines contents p with
  | [] => []
  | lines =>
    let removed := commonIndent lines
    let count := lines.length
    [Text.lineFeed] ++
      (lines.mapIdx fun index line => showLine paint p removed index count line).flatten ++
      [Text.lineFeed]

/-- The excerpt for a position, empty if its file cannot be read. -/
def ofPosition (read : Reader) (p : Position) : Bytes :=
  if isShowable p then
    match read p.file with
    | .ok contents => showText paint contents p
    | .error _ => []
  else []

end

end Grf.Excerpt
