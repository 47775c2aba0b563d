import Grf.Compilation.Actions

namespace Grf.Compilation

/-- Prepares declarations up to the first failure. -/
def prepareEach (c : Compilation) : List Nat → Except Failure Unit × Compilation
  | [] => (.ok (), c)
  | i :: rest =>
    match c.prepare i with
    | (.error failure, c) => (.error failure, c)
    | (.ok _, c) => c.prepareEach rest

/-- Requests the actions of the declarations at the given places of the script, in the given
order, and notes each answer with its place. A failure does not stop the others. -/
def actionsAt (c : Compilation) :
    List Nat → List (Nat × Except Failure (List Action)) × Compilation
  | [] => ([], c)
  | place :: rest =>
    match c.script[place]? with
    | none => c.actionsAt rest
    | some i =>
      let (answer, c) := c.actions i
      let (answers, c) := c.actionsAt rest
      ((place, answer) :: answers, c)

/-- All actions in the order of their places, or the failure at the first place that has one. -/
def collect (answers : List (Nat × Except Failure (List Action))) :
    List Nat → Except Failure (List Action)
  | [] => .ok []
  | place :: rest =>
    match answers.lookup place with
    | none => collect answers rest
    | some (.error failure) => .error failure
    | some (.ok actions) =>
      match collect answers rest with
      | .error failure => .error failure
      | .ok more => .ok (actions ++ more)

/-- The places of the script. -/
def places (c : Compilation) : List Nat :=
  List.range c.script.length

/-- Makes the output of the script. First all declarations are prepared in source order, so that
action IDs and warnings do not depend on the schedule; then their actions are requested in the
order of the schedule, and put together in source order. -/
def generateBy (schedule : List Nat) (c : Compilation) :
    Except Failure (List Action) × Compilation :=
  let c := { c with log := c.log.beginPhase "Preparing" }
  match c.prepareEach c.script with
  | (.error failure, c) => (.error failure, { c with log := c.log.closePhase false })
  | (.ok _, c) =>
    let c := { c with log := (c.log.closePhase true).beginPhase "Generating" }
    let (answers, c) := c.actionsAt schedule
    match collect answers c.places with
    | .error failure => (.error failure, { c with log := c.log.closePhase false })
    | .ok actions => (.ok actions, { c with log := c.log.closePhase true })

/-- Makes the output of the script, one declaration after the other. -/
def generate (c : Compilation) : Except Failure (List Action) × Compilation :=
  generateBy c.places c

/-- The outcome of writing the output: the count that is returned, the failure if there is one,
and the writer afterwards. -/
structure Written where
  count : Int64
  result : Except Failure Unit
  writer : Writer

/-- Makes the output by a schedule and writes it. The count is that of all records, or zero on
failure. -/
def writeBy (schedule : List Nat) (c : Compilation) (w : Writer) : Written × Compilation :=
  match generateBy schedule c with
  | (.error failure, c) => (⟨0, .error failure, w⟩, c)
  | (.ok actions, c) =>
    match w.writeAll actions with
    | (w, .error failure) => (⟨0, .error failure, w⟩, c)
    | (w, .ok _) => (⟨Action.totalSize actions, .ok (), w⟩, c)

/-- Makes the output, one declaration after the other, and writes it. -/
def writeTo (c : Compilation) (w : Writer) : Written × Compilation :=
  writeBy c.places c w

end Grf.Compilation
