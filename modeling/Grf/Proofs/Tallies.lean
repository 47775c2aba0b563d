import Grf.Proofs.Output
import Grf.Proofs.Ranges
import Grf.Proofs.Writing

namespace Grf

namespace Writer

variable {w mid last : Writer} {count more : Nat}

/-- `last` holds all that `w` holds, and that many bytes after it. -/
structure Gains (w last : Writer) (count : Nat) : Prop where
  before : w.stored <+: last.stored
  length : last.stored.length = w.stored.length + count

theorem Gains.refl (w : Writer) : w.Gains w 0 :=
  ⟨List.prefix_rfl, rfl⟩

theorem Gains.trans (first : w.Gains mid count) (second : mid.Gains last more) :
    w.Gains last (count + more) := by
  refine ⟨first.before.trans second.before, ?_⟩
  have early := first.length
  have late := second.length
  omega

theorem Gains.exists_added (gains : w.Gains last count) :
    ∃ added, last.stored = w.stored ++ added ∧ added.length = count := by
  obtain ⟨added, same⟩ := gains.before
  refine ⟨added, same.symm, ?_⟩
  have length := gains.length
  rw [← same, List.length_append] at length
  omega

theorem gains_write (w : Writer) (chunk : Bytes) :
    w.Gains (w.write chunk).1 (w.write chunk).2.1 :=
  ⟨List.prefix_append _ _, w.length_write chunk⟩

theorem gains_writeChunks (w : Writer) (chunks : List Bytes) :
    w.Gains (w.writeChunks chunks).1 (w.writeChunks chunks).2.1 := by
  refine ⟨?_, w.length_writeChunks chunks⟩
  induction chunks generalizing w with
  | nil => exact List.prefix_rfl
  | cons chunk rest ih =>
    have here := (w.gains_write chunk).before
    cases outcome : (w.write chunk).2.2 with
    | some failure =>
      rw [writeChunks_failed outcome]
      exact here
    | none =>
      rw [writeChunks_passed outcome]
      exact here.trans (ih (w.write chunk).1)

/-- The failure that a record ends with stores nothing and takes nothing back. -/
theorem gains_writeAction (w : Writer) (a : Action) :
    w.Gains (w.writeAction a).1 (w.writeAction a).2.1 := by
  have gains := w.gains_writeChunks a.chunks
  unfold writeAction
  split
  all_goals
    rename_i run
    rw [run] at gains
    exact gains

/-- The size that a record tells is the word of the count that agrees with it. -/
theorem size_eq_ofNat {a : Action} (counted : (count : Int) = a.size.toInt) :
    a.size = Int64.ofNat count := by
  rw [← Int64.ofInt_toInt a.size, ← counted, Int64.ofInt_eq_ofNat]

/-- Whatever the writer does, the sizes of records that are written without a failure add up to the
bytes that it has gained, since each record was checked against its own count. -/
theorem gains_writeFrom (w : Writer) (index : Nat) (actions : List Action) :
    ∃ count, w.Gains (w.writeFrom index actions).1 count ∧
      ((w.writeFrom index actions).2 = .ok () → Action.totalSize actions = Int64.ofNat count) := by
  induction actions generalizing w index with
  | nil => exact ⟨0, .refl w, fun _ => rfl⟩
  | cons a rest ih =>
    have here := w.gains_writeAction a
    rw [writeFrom]
    split
    · rename_i run
      rw [run] at here
      exact ⟨_, here, fun passed => by cases passed⟩
    · rename_i after count run
      rw [run] at here
      split
      · rename_i counted
        obtain ⟨more, later, total⟩ := ih after (index + 1)
        refine ⟨count + more, here.trans later, ?_⟩
        intro passed
        have others : (rest.map (·.size)).sum = Int64.ofNat more := total passed
        rw [Action.totalSize, List.map_cons, List.sum_cons, others, size_eq_ofNat counted,
          Int64.ofNat_add]
      · exact ⟨_, here, fun passed => by cases passed⟩

end Writer

namespace Compilation

/-- What the outcome of writing tells about the bytes that were stored by it. -/
structure Written.Tallies (out : Written) (w : Writer) (added : Bytes) : Prop where
  stored : out.writer.stored = w.stored ++ added
  passed : out.result = .ok () → out.count = Int64.ofNat added.length
  failed : out.result ≠ .ok () → out.count = 0
  /-- On failure the count is right only if nothing was stored. -/
  true_iff : out.count.toInt = added.length ↔
    added = [] ∨ out.result = .ok () ∧ added.length < 2 ^ 63

theorem Written.Tallies.of_failed (failure : Failure) {w last : Writer} {added : Bytes}
    (stored : last.stored = w.stored ++ added) :
    Written.Tallies ⟨0, .error failure, last⟩ w added where
  stored := stored
  passed := by simp
  failed _ := rfl
  true_iff := by simp [eq_comm]

theorem Written.Tallies.of_passed {w last : Writer} {added : Bytes}
    (stored : last.stored = w.stored ++ added) :
    Written.Tallies ⟨Int64.ofNat added.length, .ok (), last⟩ w added where
  stored := stored
  passed _ := rfl
  failed := by simp
  true_iff := by
    rw [toInt_ofNat_eq_iff]
    constructor
    · exact fun few => Or.inr ⟨rfl, few⟩
    · rintro (rfl | ⟨_, few⟩)
      · decide
      · exact few

/-- The count of a call that succeeds is the number of bytes that it has stored. A call that fails
answers zero instead, also where a writer that failed late, a record that failed at its end or a size
that was wrong has left bytes behind. -/
theorem writeBy_tally (schedule : List Nat) (c : Compilation) (w : Writer) :
    ∃ added, Written.Tallies (c.writeBy schedule w).1 w added ∧
      ∀ failure, (generateBy schedule c).1 = .error failure → added = [] := by
  unfold writeBy
  split
  · exact ⟨[], .of_failed _ (List.append_nil _).symm, fun _ _ => rfl⟩
  · rename_i actions after made
    obtain ⟨count, gains, total⟩ := w.gains_writeFrom 0 actions
    obtain ⟨added, stored, rfl⟩ := gains.exists_added
    refine ⟨added, ?_, fun failure failed => ?_⟩
    · split
      · rename_i last failure run
        rw [← Writer.writeAll, run] at stored
        exact .of_failed failure stored
      · rename_i last run
        rw [← Writer.writeAll, run] at stored total
        rw [total rfl]
        exact .of_passed stored
    · rw [made] at failed
      cases failed

/-- The writer is full after the first byte of the second record, and three bytes are stored. -/
theorem writeTo_tally_yard :
    (yardReady.writeTo (.limited (some 3) false)).1.result =
        .error (.within "writing action 1" (.external "writer full")) ∧
      (yardReady.writeTo (.limited (some 3) false)).1.writer.stored = [4, 0, 7] ∧
      (yardReady.writeTo (.limited (some 3) false)).1.count = 0 := by
  decide +kernel

end Compilation

end Grf
