import Grf.Action
import Mathlib.Algebra.Order.Ring.Nat

namespace Grf

namespace Action

/-- The record writes as many bytes as it says, and fails only where the writer does. -/
structure IsHonest (a : Action) : Prop where
  size : a.size.toInt = a.bytes.length
  failure : a.failure = none

theorem isHonest_raw {bytes : Bytes} (few : bytes.length < 2 ^ 63) : (raw bytes).IsHonest := by
  refine ⟨?_, rfl⟩
  rw [Action.bytes, raw, List.flatten_singleton]
  exact Int64.toInt_ofNat_of_lt few

/-- The sizes are added up as words. -/
theorem totalSize_eq {actions : List Action} (honest : ∀ a ∈ actions, a.IsHonest) :
    totalSize actions = Int64.ofNat (actions.flatMap bytes).length := by
  induction actions with
  | nil => rfl
  | cons a rest ih =>
    obtain ⟨here, later⟩ := List.forall_mem_cons.mp honest
    have size : a.size = Int64.ofNat a.bytes.length := by
      rw [← Int64.ofInt_toInt a.size, here.size, Int64.ofInt_eq_ofNat]
    have others := ih later
    unfold totalSize at others ⊢
    rw [List.map_cons, List.sum_cons, others, size, List.flatMap_cons, List.length_append,
      Int64.ofNat_add]

theorem toInt_totalSize {actions : List Action} (honest : ∀ a ∈ actions, a.IsHonest)
    (few : (actions.flatMap bytes).length < 2 ^ 63) :
    (totalSize actions).toInt = (actions.flatMap bytes).length := by
  rw [totalSize_eq honest]
  exact Int64.toInt_ofNat_of_lt few

end Action

namespace Writer

variable {w mid last : Writer} {limit : Nat} {chunks first rest : List Bytes} {chunk : Bytes}
  {failure : Failure}

/-- The writer takes all that fits into its limit. On a chunk that does not fit it may fail, and it
may as well keep silent. -/
structure TakesUpTo (w : Writer) (limit : Nat) : Prop where
  count : ∀ given chunk,
    (w.accept given chunk).1 = min chunk.length (limit - given.flatten.length)
  silent : ∀ given chunk, given.flatten.length + chunk.length ≤ limit →
    (w.accept given chunk).2 = none

theorem takesUpTo_limited (limit : Nat) (short : Bool) :
    (limited (some limit) short).TakesUpTo limit := by
  refine ⟨fun _ _ => rfl, ?_⟩
  intro given chunk fits
  have whole : ¬ min chunk.length (limit - given.flatten.length) < chunk.length := by omega
  simp only [limited, whole, false_and, if_false]

/-- A writer within its limit: what it has stored is the beginning of all that it was given. -/
structure Keeps (w : Writer) (limit : Nat) : Prop where
  takes : w.TakesUpTo limit
  stored : w.stored = w.given.flatten.take limit

theorem Keeps.length_stored (keeps : w.Keeps limit) :
    w.stored.length = min limit w.given.flatten.length := by
  rw [keeps.stored, List.length_take]

theorem Keeps.write (keeps : w.Keeps limit) (chunk : Bytes) : (w.write chunk).1.Keeps limit := by
  refine ⟨⟨keeps.takes.count, keeps.takes.silent⟩, ?_⟩
  have taken : chunk.take (w.accept w.given chunk).1 =
      chunk.take (limit - w.given.flatten.length) := by
    rw [keeps.takes.count, List.take_eq_take_iff]
    omega
  simp only [Writer.write]
  rw [keeps.stored, taken, List.flatten_append, List.flatten_singleton, List.take_append]

theorem write_given (w : Writer) (chunk : Bytes) : (w.write chunk).1.given = w.given ++ [chunk] :=
  rfl

theorem Keeps.fails_beyond (keeps : w.Keeps limit)
    (failed : (w.write chunk).2.2 = some failure) :
    limit < (w.write chunk).1.given.flatten.length := by
  rw [write_given, List.flatten_append, List.flatten_singleton, List.length_append]
  by_contra within
  have silent : (w.write chunk).2.2 = none := keeps.takes.silent w.given chunk (by omega)
  rw [silent] at failed
  cases failed

theorem writeChunks_failed (failed : (w.write chunk).2.2 = some failure) (rest : List Bytes) :
    w.writeChunks (chunk :: rest) = w.write chunk := by
  rw [writeChunks]
  split
  · rename_i run
    rw [run]
  · rename_i run
    rw [run] at failed
    cases failed

theorem writeChunks_passed (passed : (w.write chunk).2.2 = none) (rest : List Bytes) :
    w.writeChunks (chunk :: rest) =
      (((w.write chunk).1.writeChunks rest).1,
        (w.write chunk).2.1 + ((w.write chunk).1.writeChunks rest).2.1,
        ((w.write chunk).1.writeChunks rest).2.2) := by
  rw [writeChunks]
  split
  · rename_i run
    rw [run] at passed
    cases passed
  · rename_i run
    rw [run]

/-- The count is true: it is the number of bytes that are stored in addition. -/
theorem length_write (w : Writer) (chunk : Bytes) :
    (w.write chunk).1.stored.length = w.stored.length + (w.write chunk).2.1 := by
  simp only [write, List.length_append, List.length_take]

theorem length_writeChunks (w : Writer) (chunks : List Bytes) :
    (w.writeChunks chunks).1.stored.length = w.stored.length + (w.writeChunks chunks).2.1 := by
  induction chunks generalizing w with
  | nil => rfl
  | cons chunk rest ih =>
    have here := w.length_write chunk
    cases outcome : (w.write chunk).2.2 with
    | some failure =>
      rw [writeChunks_failed outcome]
      exact here
    | none =>
      have later := ih (w.write chunk).1
      rw [writeChunks_passed outcome]
      dsimp only
      omega

/-- The writer was given the chunks of a list, up to one that goes beyond its limit. -/
def Overrun (limit : Nat) (w last : Writer) (chunks : List Bytes) : Prop :=
  ∃ done, done <+: chunks ∧ last.given = w.given ++ done ∧ limit < last.given.flatten.length

theorem Overrun.append (overrun : Overrun limit w last first) (rest : List Bytes) :
    Overrun limit w last (first ++ rest) := by
  obtain ⟨done, part, given, beyond⟩ := overrun
  exact ⟨done, part.trans (List.prefix_append first rest), given, beyond⟩

theorem Overrun.after (overrun : Overrun limit mid last rest)
    (given : mid.given = w.given ++ first) : Overrun limit w last (first ++ rest) := by
  obtain ⟨done, part, givenLast, beyond⟩ := overrun
  refine ⟨first ++ done, (List.prefix_append_right_inj first).mpr part, ?_, beyond⟩
  rw [givenLast, given, List.append_assoc]

theorem writeChunks_given (passed : (w.writeChunks chunks).2.2 = none) :
    (w.writeChunks chunks).1.given = w.given ++ chunks := by
  induction chunks generalizing w with
  | nil => exact (List.append_nil _).symm
  | cons chunk rest ih =>
    cases outcome : (w.write chunk).2.2 with
    | some failure =>
      rw [writeChunks_failed outcome, outcome] at passed
      cases passed
    | none =>
      rw [writeChunks_passed outcome] at passed ⊢
      rw [ih passed, write_given, List.append_assoc, List.singleton_append]

theorem Keeps.writeChunks (keeps : w.Keeps limit) (chunks : List Bytes) :
    (w.writeChunks chunks).1.Keeps limit := by
  induction chunks generalizing w with
  | nil => exact keeps
  | cons chunk rest ih =>
    cases outcome : (w.write chunk).2.2 with
    | some failure =>
      rw [writeChunks_failed outcome]
      exact keeps.write chunk
    | none =>
      rw [writeChunks_passed outcome]
      exact ih (keeps.write chunk)

/-- A failure comes from a chunk that does not fit, since a record only passes it on. -/
theorem Keeps.overrun_of_failed (keeps : w.Keeps limit)
    (failed : (w.writeChunks chunks).2.2 = some failure) :
    Overrun limit w (w.writeChunks chunks).1 chunks := by
  induction chunks generalizing w with
  | nil => cases failed
  | cons chunk rest ih =>
    have given := w.write_given chunk
    cases outcome : (w.write chunk).2.2 with
    | some reason =>
      rw [writeChunks_failed outcome]
      exact ⟨[chunk], List.prefix_append [chunk] rest, given, keeps.fails_beyond outcome⟩
    | none =>
      rw [writeChunks_passed outcome] at failed ⊢
      exact (ih (keeps.write chunk) failed).after given

/-- Where no failure is seen, it is the count that tells whether all chunks have found room. -/
theorem Keeps.count_eq_iff (keeps : w.Keeps limit) (within : w.given.flatten.length ≤ limit)
    (passed : (w.writeChunks chunks).2.2 = none) :
    (w.writeChunks chunks).2.1 = chunks.flatten.length ↔
      (w.writeChunks chunks).1.given.flatten.length ≤ limit := by
  have given : (w.writeChunks chunks).1.given.flatten.length =
      w.given.flatten.length + chunks.flatten.length := by
    rw [writeChunks_given passed, List.flatten_append, List.length_append]
  have before := keeps.length_stored
  have after := (keeps.writeChunks chunks).length_stored
  have grown := w.length_writeChunks chunks
  omega

theorem writeAction_eq {a : Action} (honest : a.IsHonest) (w : Writer) :
    w.writeAction a = w.writeChunks a.chunks := by
  unfold writeAction
  split
  · rename_i run
    exact run.symm
  · rename_i run
    rw [honest.failure, run]

/-- The writer has taken all chunks, or it was given more than it has room for and that was found
out. -/
structure Outcome (limit : Nat) (w last : Writer) (chunks : List Bytes)
    (result : Except Failure Unit) : Prop where
  keeps : last.Keeps limit
  passed : result = .ok () →
    last.given = w.given ++ chunks ∧ last.given.flatten.length ≤ limit
  failed : result ≠ .ok () → Overrun limit w last chunks

theorem Overrun.outcome (overrun : Overrun limit w last chunks) (keeps : last.Keeps limit)
    (failure : Failure) : Outcome limit w last chunks (.error failure) :=
  ⟨keeps, by simp, fun _ => overrun⟩

theorem Outcome.after {result : Except Failure Unit} (outcome : Outcome limit mid last rest result)
    (given : mid.given = w.given ++ first) : Outcome limit w last (first ++ rest) result := by
  refine ⟨outcome.keeps, ?_, fun failed => (outcome.failed failed).after given⟩
  intro passed
  obtain ⟨givenLast, within⟩ := outcome.passed passed
  rw [given, List.append_assoc] at givenLast
  exact ⟨givenLast, within⟩

/-- Each record either finds room for all its chunks, or is the last one. -/
theorem Keeps.writeFrom (keeps : w.Keeps limit) (within : w.given.flatten.length ≤ limit)
    {actions : List Action} (honest : ∀ a ∈ actions, a.IsHonest) (index : Nat) :
    Outcome limit w (w.writeFrom index actions).1 (actions.flatMap Action.chunks)
      (w.writeFrom index actions).2 := by
  induction actions generalizing w index with
  | nil => exact ⟨keeps, fun _ => ⟨(List.append_nil _).symm, within⟩, fun failed => (failed rfl).elim⟩
  | cons a rest ih =>
    obtain ⟨here, later⟩ := List.forall_mem_cons.mp honest
    have kept := keeps.writeChunks a.chunks
    have size : a.size.toInt = a.chunks.flatten.length := here.size
    rw [Writer.writeFrom, writeAction_eq here, List.flatMap_cons]
    split
    · rename_i after count failure run
      have overrun := keeps.overrun_of_failed (congrArg (·.2.2) run)
      rw [run] at kept overrun
      exact (overrun.append _).outcome kept _
    · rename_i after count run
      have silent : (w.writeChunks a.chunks).2.2 = none := congrArg (·.2.2) run
      have given := writeChunks_given silent
      have fits := keeps.count_eq_iff within silent
      rw [run] at kept given fits
      dsimp only at kept given fits
      split
      · rename_i counted
        have room := fits.mp (by omega)
        exact (ih kept room later (index + 1)).after given
      · rename_i miscounted
        -- The record went on after a chunk that did not fit, and only the count gives that away.
        have beyond : limit < after.given.flatten.length := by
          by_contra room
          have counted := fits.mpr (by omega)
          omega
        have overrun : Overrun limit w after a.chunks := ⟨a.chunks, List.prefix_rfl, given, beyond⟩
        exact (overrun.append _).outcome kept _

/-- A new writer holds the beginning of what was to be written, and the result tells whether that is
all. -/
theorem Outcome.exact {result : Except Failure Unit} (outcome : Outcome limit w last chunks result)
    (new : w.given = []) :
    last.stored = chunks.flatten.take limit ∧ (result = .ok () ↔ chunks.flatten.length ≤ limit) := by
  have stored := outcome.keeps.stored
  by_cases passed : result = .ok ()
  · obtain ⟨given, within⟩ := outcome.passed passed
    rw [new, List.nil_append] at given
    rw [given] at stored within
    exact ⟨stored, fun _ => within, fun _ => passed⟩
  · obtain ⟨done, ⟨more, rfl⟩, given, beyond⟩ := outcome.failed passed
    rw [new, List.nil_append] at given
    rw [given] at stored beyond
    -- The chunks that were not given any more lie beyond the limit.
    rw [List.flatten_append]
    refine ⟨?_, fun ok => absurd ok passed, fun within => ?_⟩
    · rw [stored, List.take_append_of_le_length (Nat.le_of_lt beyond)]
    · rw [List.length_append] at within
      omega

theorem flatten_flatMap_chunks (actions : List Action) :
    (actions.flatMap Action.chunks).flatten = actions.flatMap Action.bytes := by
  rw [← List.flatMap_id, List.flatMap_assoc]
  simp only [List.flatMap_id]
  rfl

/-- No bytes are lost in silence. Whatever a writer with a limit does on the chunk that does not fit,
it has stored the beginning of the output as far as there is room, and the records are written without
a failure exactly when there is room for all of them. -/
theorem writeAll_exact (takes : w.TakesUpTo limit) (new : w.given = [] ∧ w.stored = [])
    {actions : List Action} (honest : ∀ a ∈ actions, a.IsHonest)
    (few : (actions.flatMap Action.bytes).length < 2 ^ 63) :
    (Action.totalSize actions).toInt = (actions.flatMap Action.bytes).length ∧
    (w.writeAll actions).1.stored =
      (actions.flatMap Action.bytes).take (min limit (Action.totalSize actions).toInt.toNat) ∧
    ((w.writeAll actions).2 = .ok () ↔ (Action.totalSize actions).toInt ≤ limit) := by
  have total := Action.toInt_totalSize honest few
  have keeps : w.Keeps limit := ⟨takes, by rw [new.1, new.2, List.flatten_nil, List.take_nil]⟩
  have outcome := keeps.writeFrom (by simp [new.1]) honest 0
  obtain ⟨stored, passes⟩ := outcome.exact new.1
  rw [flatten_flatMap_chunks] at stored passes
  refine ⟨total, ?_, ?_⟩
  · rw [total, Int.toNat_natCast]
    exact stored.trans (List.take_eq_take_min)
  · rw [total, Int.ofNat_le]
    exact passes

/-- Five bytes in two records, the second one in three chunks. -/
def parcels : List Action :=
  [.raw [7, 1], ⟨3, [[], [5], [6, 9]], none⟩]

/-- There is room for all but the last byte, and the writer keeps silent about that. -/
theorem writeAll_exact_parcels :
    (limited (some 4) true).TakesUpTo 4 ∧ (∀ a ∈ parcels, a.IsHonest) ∧
      ((limited (some 4) true).writeAll parcels).1.stored = [7, 1, 5, 6] ∧
      ((limited (some 4) true).writeAll parcels).2 ≠ .ok () := by
  have takes := takesUpTo_limited 4 true
  have honest : ∀ a ∈ parcels, a.IsHonest := by
    refine List.forall_mem_cons.mpr ⟨Action.isHonest_raw (by decide), ?_⟩
    exact List.forall_mem_singleton.mpr ⟨by decide, rfl⟩
  obtain ⟨_, stored, passes⟩ := writeAll_exact takes ⟨rfl, rfl⟩ honest (by decide)
  refine ⟨takes, honest, stored.trans (by decide), ?_⟩
  rw [Ne, passes]
  decide

end Writer

end Grf
