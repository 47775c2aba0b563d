import Grf.Proofs.Requests

namespace Grf

namespace Block

/-- The answer to a request for actions that a block gives on its own: it is not validated, or it
was asked before. -/
def standing? (b : Block) : Option (Except Failure (List Action)) :=
  if b.lifecycle.stage = .unvalidated then some (.error (.unvalidated b.kind b.name.name))
  else b.lifecycle.outcome

theorem lifecycle_withLifecycle (b : Block) (e : Lifecycle) :
    (b.withLifecycle e).lifecycle = e := by
  cases b <;> rfl

theorem outcome_finish (b : Block) (result : Except Failure (List Action)) :
    (b.withLifecycle (b.lifecycle.finish result)).lifecycle.outcome = some result := by
  rw [lifecycle_withLifecycle]
  cases result <;> rfl

theorem standing?_eq_none {b : Block} :
    b.standing? = none ↔ b.lifecycle.stage ≠ .unvalidated ∧ b.lifecycle.outcome = none := by
  unfold standing?
  split <;> simp_all

theorem standing?_finish {b : Block} (validated : b.lifecycle.stage ≠ .unvalidated)
    (result : Except Failure (List Action)) :
    (b.withLifecycle (b.lifecycle.finish result)).standing? = some result := by
  unfold standing?
  rw [lifecycle_withLifecycle]
  cases result with
  | error failure => simp [Lifecycle.finish, validated]
  | ok actions => simp [Lifecycle.finish]

theorem standing?_skip (b : Block) : (b.withLifecycle .skip).standing? = some (.ok []) := by
  unfold standing?
  rw [lifecycle_withLifecycle]
  simp [Lifecycle.skip]

end Block

namespace Compilation

variable {c after : Compilation} {i j : Nat} {b : Block} {used : Except Failure Bool}

/-- What a block replies to its first request, given what its preparation returned: the answer, the
calls that it takes, and the block from then on. -/
def reply (c : Compilation) (i : Nat) (b : Block) :
    Except Failure Bool → Except Failure (List Action) × List Call × Block
  | .error failure =>
    (.error failure, [], b.withLifecycle (b.lifecycle.finish (.error failure)))
  | .ok false => (.ok [], [], b.withLifecycle .skip)
  | .ok true =>
    let (result, calls, b) := c.encode i (b.node i) b
    (result, calls, b.withLifecycle (b.lifecycle.finish result))

/-- The compilation after a reply. -/
def replied (c : Compilation) (i : Nat) (calls : List Call) (b : Block) : Compilation :=
  { c with calls := c.calls ++ calls }.update i (.block b)

theorem block?_replied (found : c.block? i = some b) (calls : List Call) (b' : Block) (j : Nat) :
    (c.replied i calls b').block? j = if j = i then some b' else c.block? j :=
  block?_update (c := { c with calls := c.calls ++ calls }) found b' j

theorem encode_lifecycle (c : Compilation) (i : Nat) (n : Node) (b : Block) :
    (c.encode i n b).2.2.lifecycle = b.lifecycle := by
  cases b with
  | set s =>
    simp only [encode]
    split
    · rfl
    · split <;> rfl
  | group g =>
    simp only [encode]
    split <;> rfl
  | layout l =>
    simp only [encode]
    split <;> rfl

theorem reply_congr (ledger : after.ledger = c.ledger) (backend : after.backend = c.backend)
    (i : Nat) (b : Block) (used : Except Failure Bool) :
    after.reply i b used = c.reply i b used := by
  cases used with
  | error failure => rfl
  | ok used => cases used <;> simp only [reply, encode_congr ledger backend]

theorem reply_node (c : Compilation) (i : Nat) (b : Block) (used : Except Failure Bool) :
    (c.reply i b used).2.2.node i = b.node i := by
  cases used with
  | error failure => exact b.node_withLifecycle _ i
  | ok used =>
    cases used with
    | false => exact b.node_withLifecycle _ i
    | true => exact (Block.node_withLifecycle _ _ i).trans (c.encode_node i _ b)

/-- From its first request on, a block has its answer. -/
theorem reply_standing (validated : b.lifecycle.stage ≠ .unvalidated) (c : Compilation) (i : Nat)
    (used : Except Failure Bool) :
    (c.reply i b used).2.2.standing? = some (c.reply i b used).1 := by
  cases used with
  | error failure => exact Block.standing?_finish validated _
  | ok used =>
    cases used with
    | false => exact b.standing?_skip
    | true =>
      have kept : (c.encode i (b.node i) b).2.2.lifecycle.stage ≠ .unvalidated := by
        rw [encode_lifecycle]
        exact validated
      exact Block.standing?_finish kept _

theorem reply_outcome (c : Compilation) (i : Nat) (b : Block) (used : Except Failure Bool) :
    (c.reply i b used).2.2.lifecycle.outcome = some (c.reply i b used).1 := by
  cases used with
  | error failure => exact b.outcome_finish _
  | ok used =>
    cases used with
    | false =>
      rw [reply, Block.lifecycle_withLifecycle]
      rfl
    | true => exact Block.outcome_finish _ _

theorem actions_none (none : c.block? i = none) : c.actions i = (.ok [], c) := by
  simp only [actions, none]

theorem actions_standing (found : c.block? i = some b) {answer : Except Failure (List Action)}
    (standing : b.standing? = some answer) : c.actions i = (answer, c) := by
  simp only [actions, found, blockActions]
  unfold Block.standing? at standing
  split at standing
  · rename_i unvalidated
    cases standing
    rw [if_pos unvalidated]
  · rename_i validated
    rw [if_neg validated]
    simp only [standing]

theorem actions_reply (found : c.block? i = some b) (pending : b.standing? = none) :
    c.actions i =
      (((c.prepare i).2.reply i b (c.prepare i).1).1,
        (c.prepare i).2.replied i ((c.prepare i).2.reply i b (c.prepare i).1).2.1
          ((c.prepare i).2.reply i b (c.prepare i).1).2.2) := by
  obtain ⟨validated, unrequested⟩ := Block.standing?_eq_none.mp pending
  simp only [actions, found, blockActions, if_neg validated, unrequested, prepare,
    node?_of_block? found]
  cases prepared : c.prepareNode (b.node i) with
  | mk used mid =>
    cases used with
    | error failure => simp only [reply, replied, List.append_nil]
    | ok used =>
      cases used with
      | false => simp only [reply, replied, List.append_nil]
      | true => rfl

end Compilation

end Grf
