import Grf.Excerpt
import Grf.Notice

namespace Grf

/-- Where messages are shown, and what they depend on besides: the width of the terminal and how it
paints a text, the files that are quoted, and the clock. -/
structure Screen where
  width : Int64
  paint : Rendition → Bytes → Bytes := Terminal.paint
  read : Reader := fun _ => .error .missing
  /-- The time that a phase takes, in seconds. -/
  elapsed : String → String := fun _ => "0.000"

namespace Screen

/-- The widest banner. -/
def bannerLimit : Int64 := 50

/-- Half of the terminal, but at most `bannerLimit`. -/
def bannerWidth (screen : Screen) : Int64 :=
  let half := screen.width / 2
  if bannerLimit < half ∨ half ≤ 0 then bannerLimit else half

/-- The name of the file that a message is about. -/
def fileName : Option Position → String
  | some p => if p.file = "" then "<input>" else Path.base p.file
  | none => "<input>"

/-- A text in a rendition. -/
def paintText (screen : Screen) (rendition : Rendition) (text : String) : Bytes :=
  screen.paint rendition (Text.bytes text)

/-- The line above a message, which names its kind and its file. -/
def banner (screen : Screen) (notice : Notice) : Bytes :=
  let label := notice.kind ++ if notice.isError then " Error" else " Warning"
  let file := fileName notice.position
  let used := Int64.ofNat file.utf8ByteSize + Int64.ofNat label.utf8ByteSize + 1
  let dashes := screen.bannerWidth - used
  let dashes := if dashes < 1 then 1 else dashes
  Text.bytes "\n-- " ++
    screen.paintText (if notice.isError then .alarmBlock else .cautionBlock) label ++
    Text.bytes (" " ++ String.ofList (List.replicate dashes.toInt.toNat '-') ++ " ") ++
    screen.paintText .information file ++ Text.bytes "\n"

/-- A message with the source text it is about. -/
def showNotice (screen : Screen) (notice : Notice) : Bytes :=
  screen.banner notice ++
    match notice.position with
    | some p =>
      Text.bytes (p.text ++ ": " ++ notice.message ++ "\n") ++
        Excerpt.ofPosition screen.paint screen.read p
    | none => Text.bytes (notice.message ++ "\n")

/-- Names of phases are filled up to this length, so that the times stand in one column. -/
def phaseWidth : Nat := "Registering".utf8ByteSize

/-- The outcome of a phase, with the time it took if it succeeded. -/
def showPhase (screen : Screen) (phase : String) (succeeded : Bool) (elapsed : String) : Bytes :=
  if succeeded then
    screen.paintText .successBlock "Done" ++
      Text.bytes (" " ++ phase ++ Text.blanks (1 + (phaseWidth - phase.utf8ByteSize)) ++
        "(" ++ elapsed ++ "s)\n")
  else
    screen.paintText .alarmBlock "Fail" ++ Text.bytes (" " ++ phase ++ "\n")

/-- A number of things in words. -/
def showCount (screen : Screen) (rendition : Rendition) (count : Nat) (noun : String) : Bytes :=
  screen.paintText rendition (toString count) ++
    Text.bytes (" " ++ noun ++ if count = 1 then "" else "s")

/-- The closing line. -/
def showSummary (screen : Screen) (errors warnings : Nat) : Bytes :=
  Text.bytes "\n" ++
    (if errors = 0 then screen.paintText .success "All done! "
      else screen.paintText .alarm "Oh no! ") ++
    Text.bytes "(" ++ screen.showCount (if errors = 0 then .success else .alarm) errors "error" ++
    Text.bytes ", " ++
    screen.showCount (if warnings = 0 then .success else .caution) warnings "warning" ++
    Text.bytes ")\n"

end Screen

end Grf
