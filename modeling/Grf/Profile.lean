import Grf.Log

namespace Grf

/-- The settings of a compilation. -/
structure Profile where
  logLevel : Int64 := LogLevel.verbose
  warnUnused : Bool := true
  warningsAsErrors : Bool := false
  /-- How many declarations may be encoded at the same time. -/
  jobs : Int64 := 1
  /-- The number of action IDs per feature. IDs are single bytes, and the last one is reserved. -/
  maxIds : Int64 := 255
deriving DecidableEq

namespace Profile

/-- There is always at least one job. -/
def workers (p : Profile) : Nat :=
  max 1 p.jobs.toInt.toNat

def newLog (p : Profile) (screen : Screen) : Log :=
  { screen, level := p.logLevel, promotes := p.warningsAsErrors }

end Profile

end Grf
