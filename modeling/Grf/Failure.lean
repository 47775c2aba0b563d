import Grf.Cause

namespace Grf

/-- An error in a script. For a name that is taken, `first` is the place of its first definition. -/
structure ScriptError where
  cause : Cause
  position : Option Position
  first : Option Position := none
deriving DecidableEq

namespace ScriptError

def kind (e : ScriptError) : ErrorKind := e.cause.kind

def message (e : ScriptError) : String := e.cause.message

def text (e : ScriptError) : String :=
  match e.position with
  | none => e.message
  | some p => p.text ++ ": " ++ e.message

end ScriptError

/-- Why an operation did not succeed: an error in the script, or a step taken at the wrong
time or with the wrong means. -/
inductive Failure where
  | script (error : ScriptError)
  | unknownOperator (code : Int64)
  | unregisteredTemplate (name : String)
  | frozen
  | propagatedTwice
  | preparedEarly
  | unvalidated (kind name : String)
  | noEncoder (kind name : String)
  | sizeMismatch (index written : Nat) (reported : Int64)
  /-- A failure outside this library. -/
  | external (text : String)
  | within (activity : String) (inner : Failure)
deriving DecidableEq

namespace Failure

/-- The error in the script that is at the bottom of the failure, if there is one. -/
def scriptError? : Failure → Option ScriptError
  | script e => some e
  | within _ inner => inner.scriptError?
  | _ => none

/-- The kind of that error. -/
def kind? (f : Failure) : Option ErrorKind :=
  f.scriptError?.map (·.kind)

def text : Failure → String
  | script e => e.text
  | unknownOperator code => "unknown binary operator: " ++ toString code
  | unregisteredTemplate name => "labels requested for unregistered template '" ++ name ++ "'"
  | frozen => "reference graph modified after usage propagation"
  | propagatedTwice => "usage propagated more than once"
  | preparedEarly => "output prepared before usage propagation"
  | unvalidated kind name => "actions requested for unvalidated " ++ kind ++ " '" ++ name ++ "'"
  | noEncoder kind name => "no encoder for " ++ kind ++ " '" ++ name ++ "'"
  | sizeMismatch index written reported =>
    "action " ++ toString index ++ " wrote " ++ toString written ++
      " bytes but reported a size of " ++ toString reported
  | external text => text
  | within activity inner => activity ++ ": " ++ inner.text

/-- The failure for an error at a place of the script. -/
def inScript (cause : Cause) (position : Option Position) : Failure :=
  script ⟨cause, position, none⟩

@[simp] theorem kind?_inScript (cause : Cause) (position : Option Position) :
    (inScript cause position).kind? = some cause.kind :=
  rfl

/-- The failure for a name at `position` that was defined before, at `first`. -/
def redefinition (cause : Cause) (position first : Option Position) : Failure :=
  script ⟨cause, position, first⟩

@[simp] theorem kind?_redefinition (cause : Cause) (position first : Option Position) :
    (redefinition cause position first).kind? = some cause.kind :=
  rfl

end Failure

end Grf
