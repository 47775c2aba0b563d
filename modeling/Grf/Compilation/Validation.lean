import Grf.Compilation

namespace Grf.Compilation

/-- Makes a declaration the next part of the script. A block takes its name at once; a template
does so when it is validated. -/
def add (c : Compilation) (i : Nat) : Except Failure Unit × Compilation :=
  match c.declarations[i]? with
  | none => (.ok (), c)
  | some (.template _ _) => (.ok (), { c with script := c.script ++ [i] })
  | some (.block b) =>
    match c.ledger.define (b.node i) with
    | .error failure => (.error failure, c)
    | .ok ledger => (.ok (), { c with ledger, script := c.script ++ [i] })

/-- Registers a template. -/
def register (c : Compilation) (i : Nat) : Except Failure Unit × Compilation :=
  match c.declarations[i]? with
  | some (.template t _) =>
    match c.library.register t with
    | .error failure => (.error failure, c)
    | .ok (library, contents) =>
      (.ok (), { c with library }.update i (.template t (some contents)))
  | _ => (.ok (), c)

/-- Checks a declaration and resolves all that does not depend on its use. -/
def validateOne (c : Compilation) (i : Nat) : Except Failure Unit × Compilation :=
  match c.declarations[i]? with
  | none => (.ok (), c)
  | some (.template _ _) => c.register i
  | some (.block (.set s)) =>
    match s.validate c.library with
    | .error failure => (.error failure, c)
    | .ok s => (.ok (), c.update i (.block (.set s)))
  | some (.block (.group g)) =>
    let (result, g) := g.validate c.scope
    (result, c.update i (.block (.group g)))
  | some (.block (.layout l)) =>
    let log := if l.params.isEmpty then c.log else c.log.warn (.layoutParameters l.position)
    (.ok (), { c with log }.update i (.block (.layout (l.validate c.scope))))

def validateEach (c : Compilation) : List Nat → Except Failure Unit × Compilation
  | [] => (.ok (), c)
  | i :: rest =>
    match c.validateOne i with
    | (.error failure, c) => (.error failure, c)
    | (.ok _, c) => c.validateEach rest

/-- Validates the script up to the first failure. -/
def validate (c : Compilation) : Except Failure Unit × Compilation :=
  c.validateEach c.script

end Grf.Compilation
