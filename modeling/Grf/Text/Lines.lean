import Grf.Text.Bytes

namespace Grf.Text

section

variable {α : Type} [DecidableEq α]

/-- Cuts a sequence at every `mark`; `piece` holds the current piece backwards. -/
def cutAt (mark : α) (piece : List α) : List α → List (List α)
  | [] => [piece.reverse]
  | a :: rest =>
    if a = mark then piece.reverse :: cutAt mark [] rest else cutAt mark (a :: piece) rest

/-- The pieces of a sequence between its marks, one more than there are marks. -/
def pieces (mark : α) (sequence : List α) : List (List α) :=
  cutAt mark [] sequence

end

/-- The lines of a text. A line feed ends a line, so nothing follows the last one. -/
def lines (text : Bytes) : List Bytes :=
  let all := pieces lineFeed text
  if all.getLast? = some [] then all.dropLast else all

/-- A line without the carriage return that may end it. -/
def dropReturn (line : Bytes) : Bytes :=
  if line.getLast? = some carriageReturn then line.dropLast else line

/-- Each tab becomes four blanks. -/
def expandTabs (line : Bytes) : Bytes :=
  line.flatMap fun b => if b = tab then [blank, blank, blank, blank] else [b]

/-- The number of blanks at the start of a line. -/
def indent (line : Bytes) : Nat :=
  (line.takeWhile (· = blank)).length

def blanks (n : Nat) : String :=
  String.ofList (List.replicate n ' ')

end Grf.Text

namespace Grf.Outline

/-- One line of an outline. -/
def line (indent : Nat) (text : String) : String :=
  Text.blanks indent ++ text ++ "\n"

/-- One line for each item. -/
def items (indent : Nat) (texts : List String) : String :=
  String.join (texts.map (line indent))

end Grf.Outline
