import Grf.Compilation

namespace Grf.Compilation

/-- The node that a reference names. -/
def resolve (c : Compilation) (r : Reference) : Except Failure Node :=
  match c.ledger.find? r.target.name with
  | some n => .ok n
  | none => .error (.inScript (.unknownBlock r.target.name) r.position)

/-- Layouts can be used directly but nothing may refer to them. -/
def isReferenceable (n : Node) : Bool :=
  n.kind == SpriteSet.kind || n.kind == SpriteGroup.kind

def linkEach (c : Compilation) (source : Node) :
    List Reference → Except Failure Unit × Compilation
  | [] => (.ok (), c)
  | r :: rest =>
    match c.resolve r with
    | .error failure => (.error failure, c)
    | .ok target =>
      if isReferenceable target then
        match c.ledger.link source target with
        | .error failure => (.error failure, c)
        | .ok ledger => { c with ledger }.linkEach source rest
      else
        (.error (.inScript (.unreferenceable r.target.name target.kind) r.position), c)

def linkAll (c : Compilation) : List Nat → Except Failure Unit × Compilation
  | [] => (.ok (), c)
  | i :: rest =>
    match c.block? i with
    | none => c.linkAll rest
    | some b =>
      match c.linkEach (b.node i) b.references with
      | (.error failure, c) => (.error failure, c)
      | (.ok _, c) => c.linkAll rest

/-- Enters all references of the script into the ledger and checks that no block reaches itself. -/
def link (c : Compilation) : Except Failure Unit × Compilation :=
  match c.linkAll c.script with
  | (.error failure, c) => (.error failure, c)
  | (.ok _, c) => (c.ledger.checkCycles, c)

/-- Uses the block of the given name directly with a feature. -/
def use (c : Compilation) (id : Identifier) (f : Feature) : Except Failure Unit × Compilation :=
  if !f.isListed then (.error (.inScript (.unlistedFeature f) id.position), c)
  else
    match c.ledger.find? id.name with
    | none => (.error (.inScript (.unknownBlock id.name) id.position), c)
    | some n =>
      match c.ledger.use n f with
      | .error failure => (.error failure, c)
      | .ok ledger => (.ok (), { c with ledger })

/-- Finds out which blocks are used, and with which features. -/
def propagate (c : Compilation) : Except Failure Unit × Compilation :=
  match c.ledger.propagate with
  | .error failure => (.error failure, c)
  | .ok ledger => (.ok (), { c with ledger })

/-- Prepares a node for output and passes on the warning. -/
def prepareNode (c : Compilation) (n : Node) : Except Failure Bool × Compilation :=
  let p := c.ledger.prepare n
  let log :=
    match p.warning with
    | none => c.log
    | some w => c.log.warn w
  (p.used, { c with ledger := p.ledger, log })

/-- Decides whether output is made for a declaration. Templates need no decision. -/
def prepare (c : Compilation) (i : Nat) : Except Failure Bool × Compilation :=
  match c.node? i with
  | none => (.ok true, c)
  | some n => c.prepareNode n

end Grf.Compilation
