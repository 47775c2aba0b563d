import Grf.Ledger
import Grf.Proofs.Reach

namespace Grf.Ledger

theorem mem_features {ledger : Ledger} {n : Node} {f : Feature} :
    f ∈ (ledger.features n).toList ↔ (n, f) ∈ ledger.carried.getD [] := by
  simp only [features, FeatureSet.mem_ofList, List.mem_filterMap, Option.ite_none_right_eq_some,
    Option.some.injEq]
  constructor
  · rintro ⟨⟨m, h⟩, member, rfl, rfl⟩
    exact member
  · intro member
    exact ⟨(n, f), member, rfl, rfl⟩

theorem isUsed_iff {ledger : Ledger} {n : Node} :
    ledger.isUsed n = true ↔ ∃ f, f ∈ (ledger.features n).toList := by
  simp only [isUsed, Bool.not_eq_true', List.isEmpty_eq_false_iff_exists_mem]

theorem mem_roots {ledger : Ledger} {n : Node} {f : Feature} :
    n ∈ ledger.roots f ↔ (n, f) ∈ ledger.uses := by
  simp only [roots, List.mem_filterMap, Option.ite_none_right_eq_some, Option.some.injEq]
  constructor
  · rintro ⟨⟨m, h⟩, member, rfl, rfl⟩
    exact member
  · intro member
    exact ⟨(n, f), member, rfl, rfl⟩

theorem define_eq_ok {ledger after : Ledger} {n : Node} :
    ledger.define n = .ok after ↔
      ledger.carried = none ∧ ledger.find? n.name.name = none ∧
        after = { ledger with nodes := ledger.nodes ++ [n] } := by
  unfold define isPropagated
  cases ledger.carried <;> cases ledger.find? n.name.name <;> simp [eq_comm]

theorem link_eq_ok {ledger after : Ledger} {source target : Node} :
    ledger.link source target = .ok after ↔
      ledger.carried = none ∧
        after = { ledger with references := ⟨ledger.references.edges ++ [(source, target)]⟩ } := by
  unfold link isPropagated
  cases ledger.carried <;> simp [eq_comm]

theorem use_eq_ok {ledger after : Ledger} {n : Node} {f : Feature} :
    ledger.use n f = .ok after ↔
      ledger.carried = none ∧ after = { ledger with uses := ledger.uses ++ [(n, f)] } := by
  unfold use isPropagated
  cases ledger.carried <;> simp [eq_comm]

/-- Propagation succeeds the first time and changes nothing but the carried features. -/
theorem propagate_eq {ledger : Ledger} (first : ledger.carried = none) :
    ∃ carried, ledger.propagate = .ok { ledger with carried := some carried } := by
  simp [propagate, isPropagated, first]

theorem carried_of_propagate {ledger after : Ledger} (run : ledger.propagate = .ok after) :
    ∃ carried, after = { ledger with carried := some carried } ∧
      ∀ n f, (n, f) ∈ carried ↔ ∃ r, (r, f) ∈ ledger.uses ∧ ledger.references.Path r n := by
  unfold propagate at run
  split at run
  · cases run
  · cases run
    refine ⟨_, rfl, ?_⟩
    intro n f
    simp only [List.mem_flatMap, FeatureSet.mem_ofList, List.mem_map, Prod.mk.injEq]
    constructor
    · rintro ⟨g, _, m, reached, rfl, rfl⟩
      obtain ⟨r, root, path⟩ := Graph.mem_reach.mp reached
      exact ⟨r, mem_roots.mp root, path⟩
    · rintro ⟨r, used, path⟩
      exact ⟨f, ⟨(r, f), used, rfl⟩, n, Graph.mem_reach.mpr ⟨r, mem_roots.mpr used, path⟩, rfl, rfl⟩

/-- The features of a node after propagation are those of the roots that reach it. -/
theorem mem_features_of_propagate {ledger after : Ledger} {n : Node} {f : Feature}
    (run : ledger.propagate = .ok after) :
    f ∈ (after.features n).toList ↔
      ∃ r, (r, f) ∈ ledger.uses ∧ ledger.references.Path r n := by
  obtain ⟨carried, rfl, exact⟩ := carried_of_propagate run
  rw [mem_features]
  exact exact n f

/-- What is written into a ledger before propagation. -/
inductive Entry where
  | define (n : Node)
  | link (source target : Node)
  | use (n : Node) (f : Feature)

/-- The edge that an entry draws. -/
def Entry.edge? : Entry → Option (Node × Node)
  | link source target => some (source, target)
  | _ => none

/-- The direct use that an entry records. -/
def Entry.use? : Entry → Option (Node × Feature)
  | use n f => some (n, f)
  | _ => none

theorem Entry.edge?_eq_some {e : Entry} {a b : Node} : e.edge? = some (a, b) ↔ e = link a b := by
  cases e <;> simp [edge?]

theorem Entry.use?_eq_some {e : Entry} {n : Node} {f : Feature} :
    e.use? = some (n, f) ↔ e = use n f := by
  cases e <;> simp [use?]

def enter (ledger : Ledger) : Entry → Except Failure Ledger
  | .define n => ledger.define n
  | .link source target => ledger.link source target
  | .use n f => ledger.use n f

/-- Makes entries one after the other. One that is refused leaves the ledger as it is. -/
def enterAll (ledger : Ledger) : List Entry → Ledger
  | [] => ledger
  | e :: rest =>
    match ledger.enter e with
    | .error _ => ledger.enterAll rest
    | .ok after => after.enterAll rest

/-- An entry made before propagation adds its edge or its use. Only a definition can be refused. -/
theorem enter_cases {ledger : Ledger} (growing : ledger.carried = none) (e : Entry) :
    (∃ failure, ledger.enter e = .error failure ∧ e.edge? = none ∧ e.use? = none) ∨
      ∃ after, ledger.enter e = .ok after ∧ after.carried = none ∧
        after.references.edges = ledger.references.edges ++ e.edge?.toList ∧
        after.uses = ledger.uses ++ e.use?.toList := by
  cases e with
  | define n =>
    cases result : ledger.define n with
    | error failure => exact Or.inl ⟨failure, result, rfl, rfl⟩
    | ok after =>
      obtain ⟨_, _, rfl⟩ := define_eq_ok.mp result
      exact Or.inr ⟨_, result, growing, (List.append_nil _).symm, (List.append_nil _).symm⟩
  | link source target =>
    exact Or.inr ⟨_, link_eq_ok.mpr ⟨growing, rfl⟩, growing, rfl, (List.append_nil _).symm⟩
  | use n f =>
    exact Or.inr ⟨_, use_eq_ok.mpr ⟨growing, rfl⟩, growing, (List.append_nil _).symm, rfl⟩

theorem enterAll_spec {ledger : Ledger} (growing : ledger.carried = none) (entries : List Entry) :
    (ledger.enterAll entries).carried = none ∧
      (ledger.enterAll entries).references.edges =
        ledger.references.edges ++ entries.filterMap Entry.edge? ∧
      (ledger.enterAll entries).uses = ledger.uses ++ entries.filterMap Entry.use? := by
  induction entries generalizing ledger with
  | nil => simp [enterAll, growing]
  | cons e rest ih =>
    rcases enter_cases growing e with ⟨failure, refused, noEdge, noUse⟩ |
      ⟨after, made, growingAfter, edges, uses⟩
    · simp only [enterAll, refused, List.filterMap_cons, noEdge, noUse]
      exact ih growing
    · obtain ⟨growingLast, restEdges, restUses⟩ := ih growingAfter
      simp only [enterAll, made]
      refine ⟨growingLast, ?_, ?_⟩
      · rw [restEdges, edges, List.append_assoc, List.filterMap_cons]
        cases e.edge? <;> rfl
      · rw [restUses, uses, List.append_assoc, List.filterMap_cons]
        cases e.use? <;> rfl

/-- Propagation after any entries succeeds and computes reachability: the features of a node are
those of the direct uses from which a path of links leads to it, in ascending order. -/
theorem propagate_exact (warnUnused : Bool) (capacity : Int64) (entries : List Entry) :
    ∃ after, (enterAll { warnUnused, capacity } entries).propagate = .ok after ∧
      ∀ n,
        (∀ f, f ∈ (after.features n).toList ↔
          ∃ r, .use r f ∈ entries ∧
            Relation.ReflTransGen (fun a b => .link a b ∈ entries) r n) ∧
        (after.features n).toList.Pairwise (·.code < ·.code) ∧
        (after.isUsed n = true ↔
          ∃ f r, .use r f ∈ entries ∧
            Relation.ReflTransGen (fun a b => .link a b ∈ entries) r n) := by
  have spec : (enterAll { warnUnused, capacity } entries).carried = none ∧ _ :=
    enterAll_spec rfl entries
  obtain ⟨growing, edges, uses⟩ := spec
  obtain ⟨carried, run⟩ := propagate_eq growing
  have edge : (enterAll { warnUnused, capacity } entries).references.Edge =
      fun a b => .link a b ∈ entries := by
    funext a b
    simp [Graph.Edge, edges, Entry.edge?_eq_some]
  have exact (n : Node) (f : Feature) :
      f ∈ (features { enterAll { warnUnused, capacity } entries with carried := some carried }
        n).toList ↔
        ∃ r, .use r f ∈ entries ∧
          Relation.ReflTransGen (fun a b => .link a b ∈ entries) r n := by
    rw [mem_features_of_propagate run]
    simp only [Graph.Path, edge, uses, List.nil_append, List.mem_filterMap, Entry.use?_eq_some,
      exists_eq_right]
  refine ⟨_, run, fun n => ⟨exact n, (features _ n).ascending, ?_⟩⟩
  rw [isUsed_iff]
  exact exists_congr (exact n)

end Grf.Ledger
