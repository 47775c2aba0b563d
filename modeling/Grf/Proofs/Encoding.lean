import Grf.Compilation.Actions
import Grf.Proofs.Names

namespace Grf

/-- What the backend makes of a block for one feature. A set goes to the sink and has no actions. -/
inductive Backend.Makes (backend : Backend) (f : Feature) (id : Option Nat) :
    Block → List Action → Prop
  | set {s} : backend.Makes f id (.set s) []
  | group {g encoder actions} : backend.groups = some encoder →
      encoder g f id = .ok actions → backend.Makes f id (.group g) actions
  | layout {l encoder actions} : backend.layouts = some encoder →
      encoder l f id = .ok actions → backend.Makes f id (.layout l) actions

/-- The actions of an answer. -/
def actionsIn : Except Failure (List Action) → List Action
  | .ok actions => actions
  | .error _ => []

/-- The call goes to the sink. -/
def Call.isDelivery : Call → Bool
  | set _ _ => true
  | _ => false

section EncodeEach

variable {encode : Feature → Except Failure (List Action)} {call : Feature → Call}
  {features : List Feature}

theorem encodeEach_ok {actions : List Action}
    (passed : (encodeEach encode call features).1 = .ok actions) :
    actions = features.flatMap (fun f => actionsIn (encode f)) ∧
      ∀ f ∈ features, encode f = .ok (actionsIn (encode f)) := by
  induction features generalizing actions with
  | nil =>
    cases passed
    exact ⟨rfl, by simp⟩
  | cons f rest ih =>
    unfold encodeEach at passed
    split at passed
    · cases passed
    · rename_i made first
      split at passed
      · cases passed
      · rename_i more calls second
        cases passed
        obtain ⟨rfl, answered⟩ := ih (congrArg Prod.fst second)
        refine ⟨by rw [List.flatMap_cons, first, actionsIn], ?_⟩
        exact List.forall_mem_cons.mpr ⟨by rw [first, actionsIn], answered⟩

theorem mem_calls_encodeEach {made : Call}
    (member : made ∈ (encodeEach encode call features).2) : ∃ f, made = call f := by
  induction features with
  | nil => simp [encodeEach] at member
  | cons f rest ih =>
    unfold encodeEach at member
    split at member
    · exact ⟨f, List.mem_singleton.mp member⟩
    · split at member
      all_goals
        rename_i second
        rw [second] at ih
        exact (List.mem_cons.mp member).elim (fun same => ⟨f, same⟩) ih

theorem deliveries_encodeEach (other : ∀ f, (call f).isDelivery = false) :
    (encodeEach encode call features).2.filter Call.isDelivery = [] := by
  rw [List.filter_eq_nil_iff]
  intro made member
  obtain ⟨f, rfl⟩ := mem_calls_encodeEach member
  simp [other f]

end EncodeEach

namespace Compilation

variable {c after : Compilation} {i : Nat} {b : Block}

theorem encode_congr (ledger : after.ledger = c.ledger) (backend : after.backend = c.backend)
    (i : Nat) (n : Node) (b : Block) : after.encode i n b = c.encode i n b := by
  unfold encode
  rw [ledger, backend]

theorem encode_node (c : Compilation) (i : Nat) (n : Node) (b : Block) :
    (c.encode i n b).2.2.node i = b.node i := by
  cases b with
  | set s =>
    simp only [encode]
    split
    · rfl
    · split <;> rfl
  | group g =>
    simp only [encode]
    split <;> rfl
  | layout l =>
    simp only [encode]
    split <;> rfl

theorem encode_makes {n : Node} {actions : List Action}
    (passed : (c.encode i n b).1 = .ok actions) :
    ∃ output : Feature → List Action,
      (∀ f ∈ (c.ledger.features n).toList,
        c.backend.Makes f (c.ledger.id? n f) b (output f)) ∧
      actions = (c.ledger.features n).toList.flatMap output := by
  cases b with
  | set s =>
    refine ⟨fun _ => [], fun _ _ => .set, ?_⟩
    rw [List.flatMap_eq_nil_iff.mpr fun _ _ => rfl]
    simp only [encode] at passed
    split at passed
    · exact (Except.ok.inj passed).symm
    · split at passed
      · cases passed
      · exact (Except.ok.inj passed).symm
  | group g =>
    simp only [encode] at passed
    split at passed
    · cases passed
    · rename_i encoder known
      obtain ⟨rfl, made⟩ := encodeEach_ok passed
      exact ⟨_, fun f member => .group known (made f member), rfl⟩
  | layout l =>
    simp only [encode] at passed
    split at passed
    · cases passed
    · rename_i encoder known
      obtain ⟨rfl, made⟩ := encodeEach_ok passed
      exact ⟨_, fun f member => .layout known (made f member), rfl⟩

/-- The call with which a set is delivered to the sink. -/
def delivery? (c : Compilation) (i : Nat) : Option Call :=
  match c.block? i with
  | some (.set s) => some (.set ((Block.set s).node i) s.contents.count)
  | _ => none

theorem deliveries_encode (found : c.block? i = some b) :
    (c.encode i (b.node i) b).2.1.filter Call.isDelivery =
      (if c.backend.sets.isSome then c.delivery? i else none).toList := by
  simp only [delivery?, found]
  cases b with
  | set s =>
    simp only [encode]
    cases c.backend.sets with
    | none => rfl
    | some sink =>
      dsimp only
      cases sink i s <;> rfl
  | group g =>
    simp only [encode, ite_self, Option.toList_none]
    cases c.backend.groups with
    | none => rfl
    | some encoder => exact deliveries_encodeEach fun _ => rfl
  | layout l =>
    simp only [encode, ite_self, Option.toList_none]
    cases c.backend.layouts with
    | none => rfl
    | some encoder => exact deliveries_encodeEach fun _ => rfl

end Compilation

end Grf
