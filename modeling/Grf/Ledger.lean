import Grf.Expr
import Grf.Failure
import Grf.Graph
import Grf.Warning

namespace Grf

/-- A declaration whose use is followed: a sprite set, group or layout. Two nodes with different
keys are different even if they share their name. -/
structure Node where
  key : Nat
  name : Identifier
  kind : String
  /-- Whether the node needs an action ID for every feature it is used with. -/
  allocates : Bool
deriving DecidableEq

/-- The action ID of a node for one feature. -/
structure Allocation where
  node : Node
  feature : Feature
  id : Nat
deriving DecidableEq

/-- Who is declared, who refers to whom, and who is used with which features. The graph grows
until the features are propagated; after that nodes are prepared for output one by one. -/
structure Ledger where
  warnUnused : Bool
  /-- The number of action IDs per feature. -/
  capacity : Int64
  /-- The defined nodes in the order of their definition. -/
  nodes : List Node := []
  references : Graph Node := {}
  /-- The nodes that are used directly, each with a feature. -/
  uses : List (Node × Feature) := []
  /-- Every node with every feature that reaches it; missing before propagation. -/
  carried : Option (List (Node × Feature)) := none
  /-- The nodes that were prepared and whether they are used, in the order of preparation. -/
  prepared : List (Node × Bool) := []
  allocations : List Allocation := []

namespace Ledger

def find? (ledger : Ledger) (name : String) : Option Node :=
  ledger.nodes.find? fun n => n.name.name == name

def isPropagated (ledger : Ledger) : Bool :=
  ledger.carried.isSome

/-- Gives a node its name, which must be free. -/
def define (ledger : Ledger) (n : Node) : Except Failure Ledger :=
  if ledger.isPropagated then .error .frozen
  else
    match ledger.find? n.name.name with
    | some first =>
      .error (.redefinition (.blockTaken n.name.name) n.name.position first.name.position)
    | none => .ok { ledger with nodes := ledger.nodes ++ [n] }

/-- Records that `source` refers to `target`. -/
def link (ledger : Ledger) (source target : Node) : Except Failure Ledger :=
  if ledger.isPropagated then .error .frozen
  else .ok { ledger with references := ⟨ledger.references.edges ++ [(source, target)]⟩ }

/-- Records that `n` is used directly with `f`. -/
def use (ledger : Ledger) (n : Node) (f : Feature) : Except Failure Ledger :=
  if ledger.isPropagated then .error .frozen
  else .ok { ledger with uses := ledger.uses ++ [(n, f)] }

/-- The nodes that are used directly with `f`. -/
def roots (ledger : Ledger) (f : Feature) : List Node :=
  ledger.uses.filterMap fun use => if use.2 = f then some use.1 else none

/-- Carries every feature along the references from its roots to all the nodes they reach. -/
def propagate (ledger : Ledger) : Except Failure Ledger :=
  if ledger.isPropagated then .error .propagatedTwice
  else
    let features := (FeatureSet.ofList (ledger.uses.map (·.2))).toList
    .ok { ledger with
      carried := some (features.flatMap fun f =>
        (ledger.references.reach (ledger.roots f)).map fun n => (n, f)) }

/-- The features that reach `n`, none before propagation. -/
def features (ledger : Ledger) (n : Node) : FeatureSet :=
  .ofList ((ledger.carried.getD []).filterMap fun use => if use.1 = n then some use.2 else none)

def isUsed (ledger : Ledger) (n : Node) : Bool :=
  !(ledger.features n).toList.isEmpty

/-- The action ID of `n` for `f`, if there is one. -/
def id? (ledger : Ledger) (n : Node) (f : Feature) : Option Nat :=
  (ledger.allocations.find? fun a => a.node = n && a.feature = f).map (·.id)

/-- The next free action ID for `f`. IDs are given out from zero on, so it is the number of those
given out. -/
def nextId (ledger : Ledger) (f : Feature) : Nat :=
  ledger.allocations.countP fun a => a.feature = f

/-- Whether all action IDs for `f` are given out. -/
def isExhausted (ledger : Ledger) (f : Feature) : Bool :=
  ledger.capacity.toInt ≤ ledger.nextId f

/-- The outcome of preparing a node: whether it is used, the ledger afterwards, and a warning to
be raised. -/
structure Preparation where
  used : Except Failure Bool
  ledger : Ledger
  warning : Option Warning := none

/-- Decides whether output is made for `n`. The first time, a used node gets its action IDs, one
for each of its features or none at all, and an unused node gives rise to a warning. Later times
give the same answer and do nothing. -/
def prepare (ledger : Ledger) (n : Node) : Preparation :=
  if !ledger.isPropagated then { used := .error .preparedEarly, ledger }
  else
    match ledger.prepared.lookup n with
    | some used => { used := .ok used, ledger }
    | none =>
      let features := (ledger.features n).toList
      if features.isEmpty then
        { used := .ok false
          ledger := { ledger with prepared := ledger.prepared ++ [(n, false)] }
          warning :=
            if ledger.warnUnused then some (.unreferenced n.kind n.name.name n.name.position)
            else none }
      else if n.allocates then
        match features.find? ledger.isExhausted with
        | some f =>
          { used := .error (.inScript (.idsExhausted n.kind n.name.name f) n.name.position)
            ledger }
        | none =>
          { used := .ok true
            ledger := { ledger with
              prepared := ledger.prepared ++ [(n, true)]
              allocations :=
                ledger.allocations ++ features.map fun f => ⟨n, f, ledger.nextId f⟩ } }
      else
        { used := .ok true
          ledger := { ledger with prepared := ledger.prepared ++ [(n, true)] } }

/-- Fails at the first node found on a cycle of references. -/
def checkCycles (ledger : Ledger) : Except Failure Unit :=
  match ledger.references.cycle? ledger.nodes with
  | some n => .error (.inScript (.blockLoop n.kind n.name.name) n.name.position)
  | none => .ok ()

end Ledger

end Grf
