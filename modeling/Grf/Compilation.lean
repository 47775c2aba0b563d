import Grf.Declaration
import Grf.Profile

namespace Grf

/-- The makers of the binary output. An encoder turns a block, a feature and an action ID into
records; the sink takes a set, under the number of its declaration, and gives it a block number. -/
structure Backend where
  groups : Option (SpriteGroup → Feature → Option Nat → Except Failure (List Action)) := none
  layouts : Option (SpriteLayout → Feature → Option Nat → Except Failure (List Action)) := none
  sets : Option (Nat → SpriteSet → Except Failure Int64) := none

/-- A call of an encoder or of the sink. -/
inductive Call where
  | group (node : Node) (feature : Feature)
  | layout (node : Node) (feature : Feature)
  | set (node : Node) (sprites : Int64)
deriving DecidableEq

/-- The state of one compilation. -/
structure Compilation where
  constants : List (String × Expr)
  backend : Backend
  ledger : Ledger
  log : Log
  library : TemplateLibrary := {}
  /-- All declarations made so far; the place in the list is the number of a declaration. -/
  declarations : List Declaration := []
  /-- The numbers of the declarations that belong to the script, in source order. -/
  script : List Nat := []
  /-- The calls of the backend, in order. -/
  calls : List Call := []

namespace Compilation

def new (profile : Profile) (screen : Screen) (constants : List (String × Expr))
    (backend : Backend) : Compilation :=
  { constants, backend
    ledger := { warnUnused := profile.warnUnused, capacity := profile.maxIds }
    log := profile.newLog screen }

/-- What the expressions of the script can refer to. -/
def scope (c : Compilation) : Scope :=
  ⟨c.constants, fun name => (c.ledger.find? name).isSome⟩

/-- Takes note of a declaration without making it a part of the script. -/
def make (c : Compilation) (d : Declaration) : Compilation :=
  { c with declarations := c.declarations ++ [d] }

/-- Puts a declaration in the place of the one with the same number. -/
def update (c : Compilation) (i : Nat) (d : Declaration) : Compilation :=
  { c with declarations := c.declarations.set i d }

/-- The block with a number, unless that is a template. -/
def block? (c : Compilation) (i : Nat) : Option Block :=
  match c.declarations[i]? with
  | some (.block b) => some b
  | _ => none

/-- The ledger's node for a block. -/
def node? (c : Compilation) (i : Nat) : Option Node :=
  (c.block? i).map (·.node i)

/-- The features that a declaration is used with. -/
def features (c : Compilation) (i : Nat) : List Feature :=
  match c.node? i with
  | none => []
  | some n => (c.ledger.features n).toList

/-- The action ID of a declaration for a feature. -/
def actionId? (c : Compilation) (i : Nat) (f : Feature) : Option Nat :=
  match c.node? i with
  | none => none
  | some n => c.ledger.id? n f

/-- The outlines of all declarations of the script. -/
def outline (c : Compilation) : String :=
  String.join (c.script.map fun i =>
    match c.declarations[i]? with
    | none => ""
    | some d => d.outline 0)

end Compilation

end Grf
