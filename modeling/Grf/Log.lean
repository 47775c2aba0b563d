import Grf.Screen

namespace Grf

namespace LogLevel

/-- The levels, each of which shows all that the lower ones show. -/
def silent : Int64 := 0
def error : Int64 := 1
def warning : Int64 := 2
def verbose : Int64 := 3

/-- The level with the given name; any other name means all. -/
def ofName (name : String) : Int64 :=
  if name = "silent" then silent
  else if name = "error" then error
  else if name = "warn" ∨ name = "warning" then warning
  else verbose

/-- Whether the name is one of those that a level has. -/
def isName (name : String) : Bool :=
  ["silent", "error", "warn", "warning", "verbose"].contains name

end LogLevel

/-- The messages of one run. Errors are shown at once; warnings are kept until the end. -/
structure Log where
  screen : Screen
  level : Int64
  /-- Whether warnings count as errors. -/
  promotes : Bool := false
  errorCount : Nat := 0
  warnings : List Notice := []
  /-- The current phase, empty between phases. -/
  phase : String := ""
  /-- What was shown so far. -/
  transcript : List Bytes := []

namespace Log

def shouldProceed (log : Log) : Bool :=
  log.errorCount == 0

/-- Makes warnings count as errors from now on, or no longer. -/
def promote (log : Log) (enabled : Bool) : Log :=
  { log with promotes := enabled }

def record (log : Log) (notice : Notice) : Log :=
  let notice := if log.promotes then { notice with isError := true } else notice
  if notice.isError then
    { log with
      errorCount := log.errorCount + 1
      transcript :=
        if LogLevel.silent < log.level then log.transcript ++ [log.screen.showNotice notice]
        else log.transcript }
  else { log with warnings := log.warnings ++ [notice] }

def error (log : Log) (failure : Failure) : Log :=
  log.record (.ofFailure failure)

def warn (log : Log) (w : Warning) : Log :=
  log.record (.ofWarning w)

def beginPhase (log : Log) (phase : String) : Log :=
  { log with phase }

/-- Ends the current phase, which took the given time. -/
def endPhase (log : Log) (succeeded : Bool) (elapsed : String) : Log :=
  if log.phase = "" then log
  else
    { log with
      phase := ""
      transcript :=
        if log.level = LogLevel.verbose then
          log.transcript ++ [log.screen.showPhase log.phase succeeded elapsed]
        else log.transcript }

/-- Ends the current phase after the time that the clock gives for it. -/
def closePhase (log : Log) (succeeded : Bool) : Log :=
  log.endPhase succeeded (log.screen.elapsed log.phase)

/-- Shows the warnings that were kept, and the summary. -/
def flush (log : Log) : Log :=
  let warnings :=
    if LogLevel.warning ≤ log.level then log.warnings.map log.screen.showNotice else []
  let summary :=
    if log.level = LogLevel.verbose then
      [log.screen.showSummary log.errorCount log.warnings.length]
    else []
  { log with transcript := log.transcript ++ warnings ++ summary }

end Log

end Grf
