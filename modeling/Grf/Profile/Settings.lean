import Grf.Files
import Grf.Profile
import Grf.Toml.Document

namespace Grf

/-- Why there is no profile. -/
inductive ProfileError where
  | unreadable (operation path : String) (cause : FileError)
  /-- The file is malformed, or a value has the wrong type. -/
  | undecodable
  | otherVersion (version : String)
  | unknownLevel (name : String)
  | negativeJobs
  | idCount
deriving DecidableEq

namespace Profile

/-- The name of the file with the settings. -/
def fileName : String := "nmlc.toml"

/-- The version of the compiler, which a profile can ask for. -/
def version : String := "0.1.0"

/-- The number of action IDs that a feature can have. -/
def idLimit : Int64 := 255

end Profile

namespace FileError

def text : FileError → String
  | missing => "no such file or directory"
  | notDirectory => "not a directory"
  | isDirectory => "is a directory"
  | nameTooLong => "file name too long"
  | malformedPath => "invalid argument"

end FileError

namespace ProfileError

def message : ProfileError → String
  | unreadable operation path cause =>
    "reading profile: " ++ operation ++ " " ++ path ++ ": " ++ cause.text
  | undecodable => "decoding profile"
  | otherVersion version =>
    "profile targets nmlc v" ++ version ++ " but this is nmlc v" ++ Profile.version
  | unknownLevel name => "invalid log level: `" ++ name ++ "`"
  | negativeJobs => "generate.jobs must not be negative"
  | idCount => "generate.max-ids must be between 1 and " ++ toString Profile.idLimit

end ProfileError

/-- The values that a settings file gives, each missing if it is not set. -/
structure Settings where
  version : Option String := none
  logLevel : Option String := none
  warnUnused : Option Bool := none
  warningsAsErrors : Option Bool := none
  jobs : Option Int64 := none
  maxIds : Option Int64 := none

namespace Settings

/-- The entry under a key in lower or, failing that, in upper case. -/
def find? (entries : List (String × Toml.Value)) (key : String) : Option Toml.Value :=
  (entries.lookup key).or (entries.lookup key.toUpper)

/-- The entries of a section, of which there are none if it is missing. -/
def sectionOf (entries : List (String × Toml.Value)) (key : String) :
    Except ProfileError (List (String × Toml.Value)) :=
  match find? entries key with
  | none => .ok []
  | some (.table _ inner) => .ok inner
  | some _ => .error .undecodable

/-- A text. An integer beyond the signed ones passes as a character, and there is none of that
number. -/
def textOf (entries : List (String × Toml.Value)) (key : String) :
    Except ProfileError (Option String) :=
  match find? entries key with
  | none => .ok none
  | some (.text value) => .ok (some value)
  | some (.integer n) =>
    if Toml.signedLimit ≤ n then .ok (some (String.singleton (Char.ofNat 0xfffd)))
    else .error .undecodable
  | some _ => .error .undecodable

def booleanOf (entries : List (String × Toml.Value)) (key : String) :
    Except ProfileError (Option Bool) :=
  match find? entries key with
  | none => .ok none
  | some (.boolean value) => .ok (some value)
  | some _ => .error .undecodable

/-- An integer as a word; the large unsigned ones wrap around. -/
def integerOf (entries : List (String × Toml.Value)) (key : String) :
    Except ProfileError (Option Int64) :=
  match find? entries key with
  | none => .ok none
  | some (.integer n) => .ok (some (Int64.ofInt n))
  | some _ => .error .undecodable

/-- The settings of a file. Keys that mean nothing here are passed over. -/
def ofToml (contents : String) : Except ProfileError Settings := do
  let some root := Toml.parse? contents | .error .undecodable
  let entries := root.entries?.getD []
  let diagnostics ← sectionOf entries "diagnostics"
  let generate ← sectionOf entries "generate"
  return {
    version := ← textOf entries "nmlc-version"
    logLevel := ← textOf diagnostics "log-level"
    warnUnused := ← booleanOf diagnostics "warn-unused"
    warningsAsErrors := ← booleanOf diagnostics "warnings-as-errors"
    jobs := ← integerOf generate "jobs"
    maxIds := ← integerOf generate "max-ids" }

end Settings

namespace Profile

/-- The profile that settings ask for. An empty text and a zero leave the default in place. -/
def ofSettings (s : Settings) : Except ProfileError Profile :=
  let asked := s.version.getD ""
  let level := s.logLevel.getD ""
  let jobs := s.jobs.getD 0
  let ids := s.maxIds.getD 0
  let default : Profile := {}
  if asked ≠ "" ∧ asked ≠ version then .error (.otherVersion asked)
  else if level ≠ "" ∧ !LogLevel.isName level then .error (.unknownLevel level)
  else if jobs < 0 then .error .negativeJobs
  else if ids < 0 ∨ idLimit < ids then .error .idCount
  else
    .ok {
      logLevel := if level = "" then default.logLevel else LogLevel.ofName level
      warnUnused := s.warnUnused.getD default.warnUnused
      warningsAsErrors := s.warningsAsErrors.getD default.warningsAsErrors
      jobs := if jobs = 0 then default.jobs else jobs
      maxIds := if ids = 0 then default.maxIds else ids }

/-- The profile in the contents of a settings file. -/
def parse (contents : String) : Except ProfileError Profile :=
  match Settings.ofToml contents with
  | .error e => .error e
  | .ok settings => ofSettings settings

/-- The profile in a directory, which is the default one if there is no file. -/
def load (read : Reader) (directory : String) : Except ProfileError Profile :=
  let path := Path.join directory fileName
  match read path with
  | .ok contents => parse (Text.decode contents)
  | .error .missing => .ok {}
  | .error .isDirectory => .error (.unreadable "read" path .isDirectory)
  | .error cause => .error (.unreadable "open" path cause)

end Profile

end Grf
