import Grf.Proofs.Decisions
import Grf.Proofs.Numbering
import Grf.Proofs.Replies

namespace Grf

namespace Call

/-- The node and the feature that an encoder is called for. -/
def encodes? : Call → Option (Node × Feature)
  | group n f => some (n, f)
  | layout n f => some (n, f)
  | set _ _ => none

/-- What a call is for: a declaration and, if it goes to an encoder, a feature. -/
def purpose : Call → Nat × Option Feature
  | group n f => (n.key, some f)
  | layout n f => (n.key, some f)
  | set n _ => (n.key, none)

end Call

/-- The calls are for the first features, up to the one that fails. -/
theorem encodeEach_calls (encode : Feature → Except Failure (List Action)) (call : Feature → Call)
    (features : List Feature) :
    ∃ made, made <+: features ∧ (encodeEach encode call features).2 = made.map call := by
  induction features with
  | nil => exact ⟨[], List.prefix_rfl, rfl⟩
  | cons f rest ih =>
    obtain ⟨made, first, calls⟩ := ih
    unfold encodeEach
    split
    · exact ⟨[f], ⟨rest, rfl⟩, rfl⟩
    · refine ⟨f :: made, List.cons_prefix_cons.mpr ⟨rfl, first⟩, ?_⟩
      split <;> rename_i run <;> simpa [run] using calls

/-- All features in the ledger are listed. -/
def Ledger.Listed (ledger : Ledger) : Prop :=
  ∀ use ∈ ledger.uses ++ ledger.carried.getD [], use.2.isListed = true

namespace Compilation

variable {c mid after : Compilation} {i : Nat} {b : Block} {used : Except Failure Bool}

/-- Calls for one block: for different purposes and, where they go to an encoder, for features that
the block is used with. -/
structure Purposeful (c : Compilation) (i : Nat) (b : Block) (calls : List Call) : Prop where
  distinct : (calls.map Call.purpose).Nodup
  own : ∀ call ∈ calls, call.purpose.1 = i
  used : ∀ call ∈ calls, ∀ n f, call.encodes? = some (n, f) →
    n = b.node i ∧ b.allocates = true ∧ f ∈ (c.ledger.features n).toList

theorem Purposeful.none (c : Compilation) (i : Nat) (b : Block) : Purposeful c i b [] :=
  ⟨List.nodup_nil, by simp, by simp⟩

theorem Purposeful.encodeEach {call : Feature → Call} (allocates : b.allocates = true)
    (purpose : ∀ f, (call f).purpose = (i, some f))
    (encodes : ∀ f, (call f).encodes? = some (b.node i, f))
    (encode : Feature → Except Failure (List Action)) :
    Purposeful c i b (Grf.encodeEach encode call (c.ledger.features (b.node i)).toList).2 := by
  obtain ⟨made, first, calls⟩ :=
    encodeEach_calls encode call (c.ledger.features (b.node i)).toList
  rw [calls]
  refine ⟨?_, ?_, ?_⟩
  · rw [List.map_map]
    refine ((FeatureSet.nodup _).sublist first.sublist).map ?_
    intro f g same
    simpa [purpose] using same
  · simp [purpose]
  · intro _ member n f isCall
    obtain ⟨g, inMade, rfl⟩ := List.mem_map.mp member
    cases (encodes g).symm.trans isCall
    exact ⟨rfl, allocates, first.subset inMade⟩

theorem encode_purposeful (c : Compilation) (i : Nat) (b : Block) :
    Purposeful c i b (c.encode i (b.node i) b).2.1 := by
  cases b with
  | set s =>
    have delivery (count : Int64) :
        Purposeful c i (.set s) [.set ((Block.set s).node i) count] :=
      ⟨List.nodup_singleton _, by simp [Call.purpose, Block.node], by simp [Call.encodes?]⟩
    simp only [encode]
    split
    · exact .none c i _
    · split <;> exact delivery _
  | group g =>
    simp only [encode]
    split
    · exact .none c i _
    · exact .encodeEach rfl (fun _ => rfl) (fun _ => rfl) _
  | layout l =>
    simp only [encode]
    split
    · exact .none c i _
    · exact .encodeEach rfl (fun _ => rfl) (fun _ => rfl) _

/-- A block that is not used takes no calls. -/
theorem reply_purposeful (c : Compilation) (i : Nat) (b : Block) (used : Except Failure Bool) :
    Purposeful c i b (c.reply i b used).2.1 ∧ ((c.reply i b used).2.1 ≠ [] → used = .ok true) := by
  cases used with
  | error failure => exact ⟨.none c i b, by simp [reply]⟩
  | ok used =>
    cases used with
    | false => exact ⟨.none c i b, by simp [reply]⟩
    | true => exact ⟨c.encode_purposeful i b, fun _ => rfl⟩

/-- A call and the compilation as it is then. -/
structure Invocation where
  state : Compilation
  call : Call

/-- An encoder is called for a declaration and a listed feature that it is used with. It has an ID
for that, which fits into a byte that is not reserved, and no other declaration has the same. -/
def Invocation.Licensed (v : Invocation) : Prop :=
  ∀ n f, v.call.encodes? = some (n, f) →
    f.isListed = true ∧ ∃ i id, v.state.node? i = some n ∧ f ∈ v.state.features i ∧
      v.state.actionId? i f = some id ∧ id ≤ 254 ∧ ∀ j, v.state.actionId? j f = some id → j = i

/-- What holds at any time. -/
structure Sound (c : Compilation) : Prop where
  numbered : c.ledger.Numbered
  capacity : c.ledger.capacity.toInt ≤ 255
  listed : c.ledger.Listed
  /-- A declaration that calls were made for has its answer. -/
  answered : ∀ call ∈ c.calls,
    ∃ b, c.block? call.purpose.1 = some b ∧ b.lifecycle.outcome ≠ none
  distinct : (c.calls.map Call.purpose).Nodup

/-- The calls between two compilations, and what can be said of them. -/
structure Traced (c : Compilation) (trace : List Invocation) (after : Compilation) : Prop where
  calls : after.calls = c.calls ++ trace.map (·.call)
  licensed : c.Sound → ∀ v ∈ trace, v.Licensed
  sound : c.Sound → after.Sound

namespace Traced

variable {trace more : List Invocation}

theorem refl (c : Compilation) : Traced c [] c :=
  ⟨by simp, by simp, id⟩

theorem trans (first : Traced c trace mid) (second : Traced mid more after) :
    Traced c (trace ++ more) after where
  calls := by rw [second.calls, first.calls, List.map_append, List.append_assoc]
  licensed := by
    intro sound v member
    rcases List.mem_append.mp member with early | late
    · exact first.licensed sound v early
    · exact second.licensed (first.sound sound) v late
  sound := second.sound ∘ first.sound

end Traced

theorem Sound.licensed (sound : c.Sound) (found : c.block? i = some b)
    (approved : c.ledger.prepared.lookup (b.node i) = some true) {calls : List Call}
    (purposeful : c.Purposeful i b calls) : ∀ call ∈ calls, Invocation.Licensed ⟨c, call⟩ := by
  intro call member n f encodes
  obtain ⟨rfl, allocates, carried⟩ := purposeful.used call member n f encodes
  have atI := node?_of_block? found
  obtain ⟨id, given⟩ := sound.numbered.exists_id?_iff.mpr
    (sound.numbered.mem_holders.mpr ⟨approved, allocates, carried⟩)
  have listed : f.isListed = true :=
    sound.listed _ (List.mem_append_right _ (Ledger.mem_features.mp carried))
  refine ⟨listed, i, id, atI, ?_, ?_, ?_, ?_⟩
  · rwa [features_eq found]
  · simpa only [actionId?, atI] using given
  · have below := sound.numbered.within _
      (sound.numbered.mem_allocations.mpr (sound.numbered.holds_of_id? given))
    have capacity := sound.capacity
    dsimp only at below
    omega
  · intro j same
    cases atJ : c.node? j with
    | none => simp [actionId?, atJ] at same
    | some m =>
      simp only [actionId?, atJ] at same
      rw [sound.numbered.id?_eq_some] at same given
      cases same.symm.trans given
      exact node?_injective atJ atI

/-- The calls for a block that has no answer yet are the first ones for it, and it has one then. -/
theorem Sound.replied (sound : c.Sound) (found : c.block? i = some b)
    (pending : b.standing? = none) (used : Except Failure Bool) :
    (c.replied i (c.reply i b used).2.1 (c.reply i b used).2.2).Sound := by
  have purposeful := (c.reply_purposeful i b used).1
  have unrequested := (Block.standing?_eq_none.mp pending).2
  have others : ∀ call ∈ c.calls, call.purpose.1 ≠ i := by
    -- Earlier calls were for declarations that have an answer, and this one has none.
    intro call member same
    obtain ⟨a, atI, answered⟩ := sound.answered call member
    rw [same, found] at atI
    cases atI
    exact answered unrequested
  refine ⟨sound.numbered, sound.capacity, sound.listed, ?_, ?_⟩
  · intro call member
    rw [block?_replied found]
    rcases List.mem_append.mp member with old | new
    · rw [if_neg (others call old)]
      exact sound.answered call old
    · rw [if_pos (purposeful.own call new)]
      exact ⟨_, rfl, by simp [reply_outcome]⟩
  · show ((c.calls ++ _).map Call.purpose).Nodup
    rw [List.map_append, List.nodup_append]
    refine ⟨sound.distinct, purposeful.distinct, ?_⟩
    rintro purpose old _ new rfl
    obtain ⟨call, member, rfl⟩ := List.mem_map.mp old
    obtain ⟨other, inReply, same⟩ := List.mem_map.mp new
    exact others call member (by rw [← same, purposeful.own other inReply])

theorem reply_traced (found : c.block? i = some b) (pending : b.standing? = none)
    (approved : used = .ok true → c.ledger.prepared.lookup (b.node i) = some true) :
    Traced c ((c.reply i b used).2.1.map fun call => ⟨c, call⟩)
      (c.replied i (c.reply i b used).2.1 (c.reply i b used).2.2) where
  calls := by
    rw [List.map_map]
    exact congrArg (c.calls ++ ·) (List.map_id _).symm
  licensed := by
    intro sound v member
    obtain ⟨call, inReply, rfl⟩ := List.mem_map.mp member
    obtain ⟨purposeful, someCall⟩ := c.reply_purposeful i b used
    have isUsed := someCall (List.ne_nil_of_mem inReply)
    exact sound.licensed found (approved isUsed) purposeful call inReply
  sound sound := sound.replied found pending used

end Compilation

end Grf
