import Grf.Compilation.Generation
import Grf.Proofs.Names

namespace Grf

section Lookup

variable {α β : Type} [BEq α] [LawfulBEq α] {a : α} {l : List α}

theorem lookup_filterMap {f : α → Option β} :
    (l.filterMap fun x => (f x).map fun y => (x, y)).lookup a = if a ∈ l then f a else none := by
  induction l with
  | nil => simp
  | cons x rest ih =>
    by_cases same : a = x
    · subst same
      cases found : f a <;> simp [found, ih]
    · have apart : (a == x) = false := beq_false_of_ne same
      cases found : f x <;> simp [found, ih, same, List.lookup_cons, apart]

theorem lookup_map {g : α → β} (member : a ∈ l) :
    (l.map fun x => (x, g x)).lookup a = some (g a) := by
  have found := lookup_filterMap (f := fun x => some (g x)) (a := a) (l := l)
  simpa [member] using found

end Lookup

namespace Ledger

/-- The action IDs that a node gets when it is prepared: for each of its features the next one. -/
def granted (ledger : Ledger) (n : Node) : List Allocation :=
  if n.allocates then (ledger.features n).toList.map fun f => ⟨n, f, ledger.nextId f⟩ else []

/-- The warning that a node gives rise to when it is prepared. -/
def unusedWarning? (ledger : Ledger) (n : Node) : Option Warning :=
  if ledger.isUsed n then none
  else if ledger.warnUnused then some (.unreferenced n.kind n.name.name n.name.position)
  else none

theorem prepare_again {ledger : Ledger} {n : Node} {used : Bool}
    (propagated : ledger.isPropagated = true) (known : ledger.prepared.lookup n = some used) :
    ledger.prepare n = { used := .ok used, ledger } := by
  simp only [prepare, propagated, known, Bool.not_true, Bool.false_eq_true, if_false]

/-- The first preparation of a node, unless it runs out of IDs. -/
theorem prepare_first {ledger : Ledger} {n : Node} {used : Bool}
    (propagated : ledger.isPropagated = true) (new : ledger.prepared.lookup n = none)
    (passed : (ledger.prepare n).used = .ok used) :
    used = ledger.isUsed n ∧
      (ledger.prepare n).ledger = { ledger with
        prepared := ledger.prepared ++ [(n, ledger.isUsed n)]
        allocations := ledger.allocations ++ ledger.granted n } ∧
      (ledger.prepare n).warning = ledger.unusedWarning? n := by
  simp only [prepare, propagated, new, Bool.not_true, Bool.false_eq_true, if_false] at passed ⊢
  split at passed
  · rename_i none
    have unused : ledger.isUsed n = false := by simp only [isUsed, none, Bool.not_true]
    have noIds : ledger.granted n = [] := by
      simp only [granted, List.isEmpty_iff.mp none, List.map_nil, ite_self]
    cases passed
    simp only [none, if_true, unused, noIds, List.append_nil, unusedWarning?, Bool.false_eq_true,
      if_false, and_self]
  · rename_i some
    have isUsed : ledger.isUsed n = true := by simp only [isUsed, some, Bool.not_false]
    simp only [some, Bool.false_eq_true, if_false, unusedWarning?, isUsed, if_true, granted]
    split at passed
    · rename_i allocates
      simp only [allocates, if_true]
      split at passed
      · cases passed
      · cases passed
        simp only [and_self]
    · rename_i none
      cases passed
      simp only [none, Bool.false_eq_true, if_false, List.append_nil, and_self]

end Ledger

namespace Compilation

theorem prepareNode_eq (c : Compilation) (n : Node) :
    c.prepareNode n = ((c.ledger.prepare n).used,
      { c with
        ledger := (c.ledger.prepare n).ledger
        log := (c.ledger.prepare n).warning.toList.foldl Log.warn c.log }) := by
  simp only [prepareNode]
  cases (c.ledger.prepare n).warning <;> rfl

/-- Preparing different nodes for the first time, up to the end. Each one is decided by the features
that were propagated, so the order plays no part in that. -/
theorem prepareEach_ok {c after : Compilation} {is : List Nat}
    (run : c.prepareEach is = (.ok (), after)) (propagated : c.ledger.isPropagated = true)
    (distinct : (is.filterMap c.node?).Nodup)
    (new : ∀ n ∈ is.filterMap c.node?, c.ledger.prepared.lookup n = none) :
    ∃ allocations, after = { c with
      ledger := { c.ledger with
        prepared := c.ledger.prepared ++
          (is.filterMap c.node?).map fun n => (n, c.ledger.isUsed n)
        allocations }
      log := ((is.filterMap c.node?).filterMap c.ledger.unusedWarning?).foldl Log.warn c.log } := by
  induction is generalizing c with
  | nil =>
    cases run
    refine ⟨after.ledger.allocations, ?_⟩
    simp only [List.filterMap_nil, List.map_nil, List.append_nil, List.foldl_nil]
  | cons i rest ih =>
    unfold prepareEach prepare at run
    cases atI : c.node? i with
    | none =>
      simp only [atI] at run
      rw [List.filterMap_cons_none atI] at distinct new ⊢
      exact ih run propagated distinct new
    | some n =>
      rw [List.filterMap_cons_some atI] at distinct new ⊢
      obtain ⟨apart, distinctRest⟩ := List.nodup_cons.mp distinct
      obtain ⟨newHere, newRest⟩ := List.forall_mem_cons.mp new
      simp only [atI, prepareNode_eq] at run
      split at run
      · cases run
      · rename_i used mid first
        obtain ⟨passed, rfl⟩ := Prod.mk.inj first
        obtain ⟨_, ledger, warning⟩ := Ledger.prepare_first propagated newHere passed
        rw [ledger, warning] at run
        have stillNew : ∀ m ∈ rest.filterMap c.node?,
            (c.ledger.prepared ++ [(n, c.ledger.isUsed n)]).lookup m = none := by
          intro m member
          have different : m ≠ n := fun same => apart (same ▸ member)
          rw [List.lookup_append, newRest m member, Option.none_or, List.lookup_cons,
            beq_false_of_ne different]
          rfl
        obtain ⟨allocations, rfl⟩ := ih run propagated distinctRest stillNew
        refine ⟨allocations, ?_⟩
        simp only [List.map_cons, List.append_assoc, List.singleton_append, List.filterMap_cons]
        cases c.ledger.unusedWarning? n <;> rfl

end Compilation

end Grf
