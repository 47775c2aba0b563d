import Grf.Action

namespace Grf

/-- How far a block has come. -/
inductive Stage where
  | unvalidated
  | validated
  | unused
  | emitted
deriving DecidableEq

namespace Stage

def all : List Stage := [unvalidated, validated, unused, emitted]

def name : Stage → String
  | unvalidated => "unvalidated"
  | validated => "validated"
  | unused => "unused"
  | emitted => "emitted"

end Stage

/-- The life of a block. The outcome of the first request for actions is kept and answers all
later requests. -/
structure Lifecycle where
  stage : Stage := .unvalidated
  outcome : Option (Except Failure (List Action)) := none

namespace Lifecycle

/-- A block that was validated before stays at the stage it has reached. -/
def validate (e : Lifecycle) : Lifecycle :=
  if e.stage = .unvalidated then { e with stage := .validated } else e

/-- The request found that the block is not used. -/
def skip : Lifecycle :=
  ⟨.unused, some (.ok [])⟩

/-- The request ended with actions or with a failure. -/
def finish (e : Lifecycle) (result : Except Failure (List Action)) : Lifecycle :=
  match result with
  | .ok _ => ⟨.emitted, some result⟩
  | .error _ => { e with outcome := some result }

end Lifecycle

end Grf
