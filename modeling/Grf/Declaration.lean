import Grf.Block.SpriteGroup
import Grf.Block.SpriteLayout
import Grf.Block.SpriteSet
import Grf.Ledger

namespace Grf

/-- A declaration that can be used by other parts of a script, and has output of its own. -/
inductive Block where
  | set (s : SpriteSet)
  | group (g : SpriteGroup)
  | layout (l : SpriteLayout)

namespace Block

def name : Block → Identifier
  | set s => s.name
  | group g => g.name
  | layout l => l.name

def kind : Block → String
  | set _ => SpriteSet.kind
  | group _ => SpriteGroup.kind
  | layout _ => SpriteLayout.kind

/-- Sets are addressed by block number, all others by action ID. -/
def allocates : Block → Bool
  | set _ => false
  | group _ => true
  | layout _ => true

def position : Block → Option Position
  | set s => s.position
  | group g => g.position
  | layout l => l.position

def lifecycle : Block → Lifecycle
  | set s => s.lifecycle
  | group g => g.lifecycle
  | layout l => l.lifecycle

def withLifecycle (e : Lifecycle) : Block → Block
  | set s => set { s with lifecycle := e }
  | group g => group { g with lifecycle := e }
  | layout l => layout { l with lifecycle := e }

/-- The block in the ledger, under the number of its declaration. -/
def node (b : Block) (key : Nat) : Node :=
  ⟨key, b.name, b.kind, b.allocates⟩

/-- The references of the block to others; a set has none. -/
def references : Block → List Reference
  | set _ => []
  | group g => g.references
  | layout l => l.references

def source : Block → String
  | set s => s.source
  | group g => g.source
  | layout l => l.source

def outline (indent : Nat) : Block → String
  | set s => s.outline indent
  | group g => g.outline indent
  | layout l => l.outline indent

end Block

/-- A declaration at the top of a script. A template keeps its labels once it is registered. -/
inductive Declaration where
  | template (t : Template) (contents : Option Resolved)
  | block (b : Block)

namespace Declaration

def position : Declaration → Option Position
  | template t _ => t.position
  | block b => b.position

def references : Declaration → List Reference
  | template _ _ => []
  | block b => b.references

/-- The stage that a block has reached; templates have none. -/
def stage? : Declaration → Option Stage
  | template _ _ => none
  | block b => some b.lifecycle.stage

/-- Labels and number of sprites of a set or of a registered template. -/
def contents? : Declaration → Option (Except Failure Resolved)
  | template _ (some contents) => some (.ok contents)
  | template t none => some (.error (.unregisteredTemplate t.name.name))
  | block (.set s) => some (.ok s.contents)
  | block _ => none

/-- The declaration as script source. -/
def source : Declaration → String
  | template t _ => t.source
  | block b => b.source

def outline (indent : Nat) : Declaration → String
  | template t _ => t.outline indent
  | block b => b.outline indent

/-- The outline at an indent that may be negative, for which there is none. -/
def outlineAt? (d : Declaration) (indent : Int64) : Option String :=
  if indent < 0 then none else some (d.outline indent.toInt.toNat)

end Declaration

end Grf
