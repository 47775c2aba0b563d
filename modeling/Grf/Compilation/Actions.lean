import Grf.Compilation.Usage

namespace Grf

/-- Encodes a block for one feature after the other, up to the first failure. The calls are those
that were made, the failing one included. -/
def encodeEach (encode : Feature → Except Failure (List Action)) (call : Feature → Call) :
    List Feature → Except Failure (List Action) × List Call
  | [] => (.ok [], [])
  | f :: rest =>
    match encode f with
    | .error failure => (.error failure, [call f])
    | .ok actions =>
      match encodeEach encode call rest with
      | (.error failure, calls) => (.error failure, call f :: calls)
      | (.ok more, calls) => (.ok (actions ++ more), call f :: calls)

namespace Compilation

/-- Makes the actions of a used block. A set goes to the sink, which gives it its block number,
and has no actions. -/
def encode (c : Compilation) (i : Nat) (n : Node) :
    Block → Except Failure (List Action) × List Call × Block
  | .set s =>
    match c.backend.sets with
    | none => (.ok [], [], .set s)
    | some sink =>
      match sink i s with
      | .error failure => (.error failure, [.set n s.contents.count], .set s)
      | .ok block => (.ok [], [.set n s.contents.count], .set { s with block })
  | .group g =>
    match c.backend.groups with
    | none => (.error (.noEncoder SpriteGroup.kind g.name.name), [], .group g)
    | some encoder =>
      let (result, calls) :=
        encodeEach (fun f => encoder g f (c.ledger.id? n f)) (.group n)
          (c.ledger.features n).toList
      (result, calls, .group g)
  | .layout l =>
    match c.backend.layouts with
    | none => (.error (.noEncoder SpriteLayout.kind l.name.name), [], .layout l)
    | some encoder =>
      let (result, calls) :=
        encodeEach (fun f => encoder l f (c.ledger.id? n f)) (.layout n)
          (c.ledger.features n).toList
      (result, calls, .layout l)

/-- The actions of a block, made at the first request and kept for all later ones. -/
def blockActions (c : Compilation) (i : Nat) (b : Block) :
    Except Failure (List Action) × Compilation :=
  if b.lifecycle.stage = .unvalidated then (.error (.unvalidated b.kind b.name.name), c)
  else
    match b.lifecycle.outcome with
    | some outcome => (outcome, c)
    | none =>
      let n := b.node i
      match c.prepareNode n with
      | (.error failure, c) =>
        (.error failure,
          c.update i (.block (b.withLifecycle (b.lifecycle.finish (.error failure)))))
      | (.ok false, c) => (.ok [], c.update i (.block (b.withLifecycle .skip)))
      | (.ok true, c) =>
        let (result, calls, b) := c.encode i n b
        (result,
          { c with calls := c.calls ++ calls }.update i
            (.block (b.withLifecycle (b.lifecycle.finish result))))

/-- The actions of a declaration. Templates have none. -/
def actions (c : Compilation) (i : Nat) : Except Failure (List Action) × Compilation :=
  match c.block? i with
  | none => (.ok [], c)
  | some b => c.blockActions i b

end Compilation

end Grf
