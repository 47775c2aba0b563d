import Grf.Failure
import Grf.Warning

namespace Grf

/-- A message to the author of a script. -/
structure Notice where
  kind : String
  message : String
  position : Option Position
  isError : Bool
deriving DecidableEq

namespace Notice

/-- An error in the script is shown with its kind and place, any other failure by its text. -/
def ofFailure (failure : Failure) : Notice :=
  match failure.scriptError? with
  | none => ⟨"Compile", failure.text, none, true⟩
  | some e =>
    let hint :=
      match e.first with
      | none => ""
      | some first => " (first definition at " ++ first.text ++ ")"
    ⟨e.kind.name, e.message ++ hint, e.position, true⟩

def ofWarning (w : Warning) : Notice :=
  ⟨w.kind, w.message, w.position, false⟩

end Notice

end Grf
