import Grf.Proofs.Cycles
import Grf.Proofs.Drafts

namespace Grf.Compilation

variable {c mid after : Compilation} {i j : Nat} {is : List Nat} {b : Block} {n : Node}
variable {r : Reference} {references : List Reference} {failure : Failure}

/-- The references of a declaration; a template has none. -/
def referencesOf (c : Compilation) (i : Nat) : List Reference :=
  match c.declarations[i]? with
  | none => []
  | some d => d.references

/-- The references of the script in source order, repeated ones included. -/
def collected (c : Compilation) : List Reference :=
  c.script.flatMap c.referencesOf

/-- The name is that of a set or a group of the script. -/
def Referable (c : Compilation) (name : String) : Prop :=
  ∃ j, c.Names j name ∧
    ((∃ s, c.block? j = some (.set s)) ∨ ∃ g, c.block? j = some (.group g))

/-- The graph holds the references of the script, in order, and nothing else. -/
structure Depicts (c : Compilation) (g : Graph Node) : Prop where
  targets : ∀ i ∈ c.script, ∀ b, c.block? i = some b →
    List.Forall₂ (fun r n => ∃ j, c.Names j r.target.name ∧ c.node? j = some n)
      b.references (g.targets (b.node i))
  edges : ∀ a m, g.Edge a m ↔
    ∃ i j, c.Refers i j ∧ c.node? i = some a ∧ c.node? j = some m
  kinds : ∀ a m, g.Edge a m → a.kind ≠ SpriteSet.kind ∧ m.kind ≠ SpriteLayout.kind
  acyclic : ∀ n, ¬ g.OnCycle n

/-- All references are in order, and the error names a group that they lead back to. -/
structure Loops (c : Compilation) (e : ScriptError) : Prop where
  referable : ∀ r ∈ c.collected, c.Referable r.target.name
  kind : e.kind = .selfInclusion
  group : ∃ i g, c.block? i = some (.group g) ∧ Relation.TransGen c.Refers i i ∧
    e.cause = .blockLoop SpriteGroup.kind g.name.name ∧ e.position = g.name.position

/-- The error tells that the reference names no block at all, or a layout. -/
structure Misnames (c : Compilation) (r : Reference) (e : ScriptError) : Prop where
  position : e.position = r.position
  cause :
    (e.kind = .unknownReference ∧ e.cause = .unknownBlock r.target.name ∧
      ∀ j, ¬ c.Names j r.target.name) ∨
    (e.kind = .referenceKind ∧ e.cause = .unreferenceable r.target.name SpriteLayout.kind ∧
      ∃ j l, c.Names j r.target.name ∧ c.block? j = some (.layout l))

/-- What linking decides, and on what grounds. -/
structure Judged (c : Compilation) : Prop where
  passes : c.link.1 = .ok () ↔
    (∀ r ∈ c.collected, c.Referable r.target.name) ∧
      ∀ i g, c.block? i = some (.group g) → ¬ Relation.TransGen c.Refers i i
  graph : c.link.1 = .ok () → c.Depicts c.link.2.ledger.references
  fails : ∀ failure, c.link.1 = .error failure → ∃ error, failure = .script error ∧
    (c.Loops error ∨ ∃ earlier r later, c.collected = earlier ++ r :: later ∧
      (∀ s ∈ earlier, c.Referable s.target.name) ∧ c.Misnames r error)

theorem referencesOf_of_block? (found : c.block? i = some b) :
    c.referencesOf i = b.references := by
  simp only [referencesOf, block?_eq_some.mp found, Declaration.references]

theorem referencesOf_of_none (none : c.block? i = none) : c.referencesOf i = [] := by
  unfold referencesOf
  split
  · rfl
  · rename_i d found
    cases d with
    | template t contents => rfl
    | block b => cases none.symm.trans (block?_eq_some.mpr found)

theorem refers_iff : c.Refers i j ↔
    i ∈ c.script ∧ ∃ r ∈ c.referencesOf i, c.Names j r.target.name := by
  unfold Refers
  cases found : c.block? i with
  | none => simp [referencesOf_of_none found]
  | some b => simp [referencesOf_of_block? found]

theorem Refers.mem_collected (refers : c.Refers i j) :
    ∃ r ∈ c.collected, c.Names j r.target.name := by
  obtain ⟨member, r, inBlock, named⟩ := refers_iff.mp refers
  exact ⟨r, List.mem_flatMap.mpr ⟨i, member, inBlock⟩, named⟩

/-- A declaration of the script is determined by its name. -/
theorem Registered.eq_of_names (registered : c.Registered) {name : String}
    (first : c.Names i name) (second : c.Names j name) : i = j := by
  obtain ⟨n, atI, _⟩ := first.2
  obtain ⟨m, atJ, _⟩ := second.2
  have foundI := registered.find?_eq_some.mpr ⟨i, first, atI⟩
  have foundJ := registered.find?_eq_some.mpr ⟨j, second, atJ⟩
  cases foundI.symm.trans foundJ
  exact node?_injective atI atJ

theorem isReferenceable_node (b : Block) (i : Nat) :
    isReferenceable (b.node i) = true ↔ (∃ s, b = .set s) ∨ ∃ g, b = .group g := by
  cases b with
  | set s => simp [isReferenceable, Block.node, Block.kind]
  | group g => simp [isReferenceable, Block.node, Block.kind]
  | layout l =>
    simp [isReferenceable, Block.node, Block.kind, SpriteLayout.kind, SpriteSet.kind,
      SpriteGroup.kind]

theorem admits_iff (registered : c.Registered) : c.Admits r ↔ c.Referable r.target.name := by
  constructor
  · rintro ⟨n, found, admitted⟩
    obtain ⟨j, named, atJ⟩ := registered.find?_eq_some.mp found
    obtain ⟨b, block, rfl⟩ := node?_eq_some.mp atJ
    refine ⟨j, named, ?_⟩
    rcases (isReferenceable_node b j).mp admitted with ⟨s, rfl⟩ | ⟨g, rfl⟩
    · exact Or.inl ⟨s, block⟩
    · exact Or.inr ⟨g, block⟩
  · rintro ⟨j, named, kind⟩
    have admits (b : Block) (block : c.block? j = some b)
        (kind : (∃ s, b = .set s) ∨ ∃ g, b = .group g) : c.Admits r :=
      ⟨b.node j, registered.find?_eq_some.mpr ⟨j, named, node?_of_block? block⟩,
        (isReferenceable_node b j).mpr kind⟩
    rcases kind with ⟨s, block⟩ | ⟨g, block⟩
    · exact admits _ block (Or.inl ⟨s, rfl⟩)
    · exact admits _ block (Or.inr ⟨g, rfl⟩)

/-- The reference is not admitted, and that is the failure. -/
def Rejects (c : Compilation) (r : Reference) (failure : Failure) : Prop :=
  (c.ledger.find? r.target.name = none ∧
      failure = .inScript (.unknownBlock r.target.name) r.position) ∨
    ∃ n, c.ledger.find? r.target.name = some n ∧ isReferenceable n = false ∧
      failure = .inScript (.unreferenceable r.target.name n.kind) r.position

theorem Rejects.misnames (rejects : c.Rejects r failure) (registered : c.Registered) :
    ∃ error, failure = .script error ∧ c.Misnames r error := by
  rcases rejects with ⟨missing, rfl⟩ | ⟨n, found, refused, rfl⟩
  · refine ⟨_, rfl, rfl, Or.inl ⟨rfl, rfl, ?_⟩⟩
    intro j named
    obtain ⟨n, atJ, _⟩ := named.2
    cases missing.symm.trans (registered.find?_eq_some.mpr ⟨j, named, atJ⟩)
  · obtain ⟨j, named, atJ⟩ := registered.find?_eq_some.mp found
    obtain ⟨b, block, rfl⟩ := node?_eq_some.mp atJ
    cases b with
    | set s => cases refused.symm.trans ((isReferenceable_node _ j).mpr (Or.inl ⟨s, rfl⟩))
    | group g => cases refused.symm.trans ((isReferenceable_node _ j).mpr (Or.inr ⟨g, rfl⟩))
    | layout l => exact ⟨_, rfl, rfl, Or.inr ⟨rfl, rfl, j, l, named, block⟩⟩

theorem linkEach_error {source : Node} (growing : c.ledger.carried = none)
    (failed : (c.linkEach source references).1 = .error failure) :
    ∃ earlier r later, references = earlier ++ r :: later ∧ (∀ s ∈ earlier, c.Admits s) ∧
      c.Rejects r failure := by
  induction references generalizing c with
  | nil => cases failed
  | cons r rest ih =>
    rw [linkEach] at failed
    cases found : c.ledger.find? r.target.name with
    | none =>
      simp only [resolve, found, Except.error.injEq] at failed
      exact ⟨[], r, rest, rfl, by simp, Or.inl ⟨found, failed.symm⟩⟩
    | some target =>
      cases admitted : isReferenceable target with
      | false =>
        simp only [resolve, found, admitted, Bool.false_eq_true, if_false,
          Except.error.injEq] at failed
        exact ⟨[], r, rest, rfl, by simp, Or.inr ⟨target, found, admitted, failed.symm⟩⟩
      | true =>
        have linked : c.ledger.link source target = .ok _ := Ledger.link_eq_ok.mpr ⟨growing, rfl⟩
        simp only [resolve, found, admitted, linked, if_true] at failed
        obtain ⟨earlier, s, later, rfl, before, rejects⟩ :=
          ih (c := c.draw [(source, target)]) growing failed
        have here : c.Admits r := ⟨target, found, admitted⟩
        exact ⟨r :: earlier, s, later, rfl, List.forall_mem_cons.mpr ⟨here, before⟩, rejects⟩

/-- Linking stops at the first reference in source order that is not admitted. -/
theorem linkAll_error (growing : c.ledger.carried = none)
    (failed : (c.linkAll is).1 = .error failure) :
    ∃ earlier r later, is.flatMap c.referencesOf = earlier ++ r :: later ∧
      (∀ s ∈ earlier, c.Admits s) ∧ c.Rejects r failure := by
  induction is generalizing c with
  | nil => cases failed
  | cons i rest ih =>
    rw [linkAll] at failed
    rw [List.flatMap_cons]
    cases found : c.block? i with
    | none =>
      simp only [found] at failed
      rw [referencesOf_of_none found, List.nil_append]
      exact ih growing failed
    | some b =>
      simp only [found] at failed
      rw [referencesOf_of_block? found]
      cases run : c.linkEach (b.node i) b.references with
      | mk result mid =>
        have here : (c.linkEach (b.node i) b.references).1 = result := congrArg Prod.fst run
        rw [run] at failed
        cases result with
        | error other =>
          cases failed
          obtain ⟨earlier, r, later, same, before, rejects⟩ := linkEach_error growing here
          refine ⟨earlier, r, later ++ rest.flatMap c.referencesOf, ?_, before, rejects⟩
          rw [same, List.append_assoc, List.cons_append]
        | ok =>
          have drawn := linkEach_ok run
          subst drawn
          obtain ⟨earlier, r, later, same, before, rejects⟩ :=
            ih (c := c.draw (c.edgesTo (b.node i) b.references)) growing failed
          refine ⟨b.references ++ earlier, r, later, ?_, ?_, rejects⟩
          · rw [List.append_assoc]
            exact congrArg (b.references ++ ·) same
          · exact List.forall_mem_append.mpr ⟨(linkEach_iff growing).mp here, before⟩

/-- A node lies on a cycle of the graph if references lead from a declaration back to it. -/
theorem onCycle_iff (registered : c.Registered)
    (edges : c.ledger.references.edges = c.script.flatMap c.edgesOf) :
    c.ledger.references.OnCycle n ↔
      ∃ i, c.node? i = some n ∧ Relation.TransGen c.Refers i i := by
  constructor
  · intro cycle
    obtain ⟨m, first, path⟩ := Relation.TransGen.head'_iff.mp cycle
    obtain ⟨i, j, refers, atI, atJ⟩ := (edge_iff registered edges).mp first
    obtain ⟨k, chain, atK⟩ := (path_iff registered edges atJ).mp path
    cases node?_injective atI atK
    exact ⟨i, atI, .head' refers chain⟩
  · rintro ⟨i, atI, loop⟩
    obtain ⟨j, refers, chain⟩ := Relation.TransGen.head'_iff.mp loop
    obtain ⟨m, atJ⟩ := refers.exists_node
    exact .head' ((edge_iff registered edges).mpr ⟨i, j, refers, atI, atJ⟩)
      ((path_iff registered edges atJ).mpr ⟨i, chain, atI⟩)

/-- A set refers to nothing. -/
theorem Refers.not_set (refers : c.Refers i j) (s : SpriteSet) : c.block? i ≠ some (.set s) := by
  intro block
  obtain ⟨_, r, inBlock, _⟩ := refers_iff.mp refers
  rw [referencesOf_of_block? block] at inBlock
  cases inBlock

/-- Nothing refers to a layout. -/
theorem Refers.set_or_group (refers : c.Refers i j) (registered : c.Registered)
    (referable : ∀ r ∈ c.collected, c.Referable r.target.name) :
    (∃ s, c.block? j = some (.set s)) ∨ ∃ g, c.block? j = some (.group g) := by
  obtain ⟨r, member, named⟩ := refers.mem_collected
  obtain ⟨k, sameName, kind⟩ := referable r member
  cases registered.eq_of_names named sameName
  exact kind

theorem group_of_loop (registered : c.Registered)
    (referable : ∀ r ∈ c.collected, c.Referable r.target.name)
    (loop : Relation.TransGen c.Refers i i) : ∃ g, c.block? i = some (.group g) := by
  obtain ⟨_, first, _⟩ := Relation.TransGen.head'_iff.mp loop
  obtain ⟨_, _, last⟩ := Relation.TransGen.tail'_iff.mp loop
  rcases last.set_or_group registered referable with ⟨s, block⟩ | group
  · exact absurd block (first.not_set s)
  · exact group

theorem forall_collected {p : Reference → Prop} : (∀ r ∈ c.collected, p r) ↔
    ∀ i ∈ c.script, ∀ b, c.block? i = some b → ∀ r ∈ b.references, p r := by
  simp only [collected, List.mem_flatMap]
  constructor
  · intro all i member b found r inBlock
    rw [← referencesOf_of_block? found] at inBlock
    exact all r ⟨i, member, inBlock⟩
  · rintro all r ⟨i, member, inBlock⟩
    cases found : c.block? i with
    | none =>
      rw [referencesOf_of_none found] at inBlock
      cases inBlock
    | some b =>
      rw [referencesOf_of_block? found] at inBlock
      exact all i member b found r inBlock

/-- The compilation with all edges of its script. -/
def drawn (c : Compilation) : Compilation :=
  c.draw (c.script.flatMap c.edgesOf)

namespace Draft

theorem drawn_references (draft : c.Draft) :
    c.drawn.ledger.references = ⟨c.script.flatMap c.edgesOf⟩ := by
  simp only [drawn, draw, draft.unlinked, List.nil_append]

theorem drawn_edge_iff (draft : c.Draft) {a m : Node} : c.drawn.ledger.references.Edge a m ↔
    ∃ i j, c.Refers i j ∧ c.node? i = some a ∧ c.node? j = some m := by
  rw [draft.drawn_references]
  exact mem_edges_iff draft.registered

theorem drawn_onCycle_iff (draft : c.Draft) : c.drawn.ledger.references.OnCycle n ↔
    ∃ i, c.node? i = some n ∧ Relation.TransGen c.Refers i i :=
  onCycle_iff (c := c.drawn) (draft.registered.congr rfl rfl fun _ => rfl)
    (congrArg Graph.edges draft.drawn_references)

theorem link_passes_iff (draft : c.Draft) : c.link.1 = .ok () ↔
    (∀ r ∈ c.collected, c.Referable r.target.name) ∧
      ∀ i g, c.block? i = some (.group g) → ¬ Relation.TransGen c.Refers i i := by
  have admitted : (∀ r ∈ c.collected, c.Admits r) ↔
      ∀ r ∈ c.collected, c.Referable r.target.name :=
    forall₂_congr fun r _ => admits_iff draft.registered
  rw [link_iff draft.growing, ← forall_collected, admitted]
  refine and_congr_right fun referable => ?_
  rw [Ledger.checkCycles_eq_ok]
  constructor
  · intro acyclic i g block loop
    obtain ⟨_, first, _⟩ := Relation.TransGen.head'_iff.mp loop
    have atI := node?_of_block? block
    have known := draft.registered.mem_nodes.mpr ⟨i, first.1, atI⟩
    exact acyclic _ known _ (.refl _) (draft.drawn_onCycle_iff.mpr ⟨i, atI, loop⟩)
  · intro grounded n _ m _ cycle
    obtain ⟨i, _, loop⟩ := draft.drawn_onCycle_iff.mp cycle
    obtain ⟨g, block⟩ := group_of_loop draft.registered referable loop
    exact grounded i g block loop

theorem link_fails (draft : c.Draft) (failed : c.link.1 = .error failure) :
    ∃ error, failure = .script error ∧
      (c.Loops error ∨ ∃ earlier r later, c.collected = earlier ++ r :: later ∧
        (∀ s ∈ earlier, c.Referable s.target.name) ∧ c.Misnames r error) := by
  unfold link at failed
  cases run : c.linkAll c.script with
  | mk result mid =>
    have entered : (c.linkAll c.script).1 = result := congrArg Prod.fst run
    rw [run] at failed
    cases result with
    | error other =>
      cases failed
      obtain ⟨earlier, r, later, same, before, rejects⟩ := linkAll_error draft.growing entered
      obtain ⟨error, rfl, misnames⟩ := rejects.misnames draft.registered
      refine ⟨error, rfl, Or.inr ⟨earlier, r, later, same, ?_, misnames⟩⟩
      exact fun s member => (admits_iff draft.registered).mp (before s member)
    | ok =>
      have admitted := forall_collected.mpr ((linkAll_iff draft.growing).mp entered)
      have referable : ∀ r ∈ c.collected, c.Referable r.target.name :=
        fun r member => (admits_iff draft.registered).mp (admitted r member)
      have same := linkAll_ok run
      subst same
      dsimp only [Ledger.checkCycles] at failed
      split at failed
      · rename_i n found
        cases failed
        obtain ⟨i, atI, loop⟩ := draft.drawn_onCycle_iff.mp (Graph.onCycle_of_cycle? found)
        obtain ⟨g, block⟩ := group_of_loop draft.registered referable loop
        cases (node?_of_block? block).symm.trans atI
        exact ⟨_, rfl, Or.inl ⟨referable, rfl, i, g, block, loop, rfl, rfl⟩⟩
      · cases failed

end Draft

/-- What the references name, in order. -/
def resolved (c : Compilation) (references : List Reference) : List Node :=
  references.filterMap fun r => c.ledger.find? r.target.name

theorem resolved_forall₂ (known : ∀ r ∈ references, c.Admits r) :
    List.Forall₂ (fun r n => c.ledger.find? r.target.name = some n) references
      (c.resolved references) := by
  induction references with
  | nil => exact .nil
  | cons r rest ih =>
    obtain ⟨⟨n, found, _⟩, others⟩ := List.forall_mem_cons.mp known
    have first : c.resolved (r :: rest) = n :: c.resolved rest := by
      rw [resolved, List.filterMap_cons, found, resolved]
    rw [first]
    exact .cons found (ih others)

theorem targets_append {α : Type} [DecidableEq α] (first second : List (α × α)) (n : α) :
    Graph.targets ⟨first ++ second⟩ n = Graph.targets ⟨first⟩ n ++ Graph.targets ⟨second⟩ n :=
  List.filterMap_append

theorem targets_edgesTo (source : Node) :
    Graph.targets ⟨c.edgesTo source references⟩ source = c.resolved references := by
  unfold Graph.targets edgesTo resolved
  rw [List.filterMap_filterMap]
  refine List.filterMap_congr ?_
  intro r _
  cases c.ledger.find? r.target.name <;> simp

theorem source_edgesOf {m : Node} (edge : (n, m) ∈ c.edgesOf i) : c.node? i = some n := by
  unfold edgesOf at edge
  split at edge
  · cases edge
  · rename_i b found
    obtain ⟨r, _, edge⟩ := List.mem_filterMap.mp edge
    obtain ⟨_, _, same⟩ := Option.map_eq_some_iff.mp edge
    cases same
    exact node?_of_block? found

theorem targets_of_absent (absent : ∀ j ∈ is, c.node? j ≠ some n) :
    Graph.targets ⟨is.flatMap c.edgesOf⟩ n = [] := by
  refine List.eq_nil_iff_forall_not_mem.mpr ?_
  intro m member
  obtain ⟨j, inList, edge⟩ := List.mem_flatMap.mp (Graph.mem_targets.mp member)
  exact absent j inList (source_edgesOf edge)

/-- All edges that leave a block were drawn by its declaration, which the script holds once. -/
theorem targets_script (distinct : (is.filterMap c.node?).Nodup) (member : i ∈ is)
    (found : c.block? i = some b) :
    Graph.targets ⟨is.flatMap c.edgesOf⟩ (b.node i) = c.resolved b.references := by
  have atI := node?_of_block? found
  obtain ⟨before, rest, rfl⟩ := List.append_of_mem member
  rw [List.filterMap_append, List.filterMap_cons_some atI, List.nodup_middle, List.nodup_cons,
    ← List.filterMap_append] at distinct
  have absent : ∀ j ∈ before ++ rest, c.node? j ≠ some (b.node i) := by
    intro j other same
    exact distinct.1 (List.mem_filterMap.mpr ⟨j, other, same⟩)
  obtain ⟨absentBefore, absentAfter⟩ := List.forall_mem_append.mp absent
  have own : Graph.targets ⟨c.edgesOf i⟩ (b.node i) = c.resolved b.references := by
    rw [edgesOf, found]
    exact targets_edgesTo _
  rw [List.flatMap_append, List.flatMap_cons, targets_append, targets_append,
    targets_of_absent absentBefore, targets_of_absent absentAfter, own, List.nil_append,
    List.append_nil]

theorem Draft.link_depicts (draft : c.Draft) (passed : c.link.1 = .ok ()) :
    c.Depicts c.link.2.ledger.references := by
  obtain ⟨referable, grounded⟩ := draft.link_passes_iff.mp passed
  have after : c.link.2 = c.drawn := link_ok (Prod.ext passed rfl)
  rw [after]
  refine ⟨?_, fun a m => draft.drawn_edge_iff, ?_, ?_⟩
  · intro i member b found
    have admitted : ∀ r ∈ b.references, c.Admits r := by
      intro r inBlock
      have named := forall_collected.mp referable i member b found r inBlock
      exact (admits_iff draft.registered).mpr named
    rw [draft.drawn_references, targets_script draft.registered.distinct member found]
    exact (resolved_forall₂ admitted).imp fun r n => draft.registered.find?_eq_some.mp
  · intro a m edge
    obtain ⟨i, j, refers, atI, atJ⟩ := draft.drawn_edge_iff.mp edge
    obtain ⟨b, block, rfl⟩ := node?_eq_some.mp atI
    refine ⟨?_, ?_⟩
    · cases b with
      | set s => exact absurd block (refers.not_set s)
      | group g => simp [Block.node, Block.kind, SpriteGroup.kind, SpriteSet.kind]
      | layout l => simp [Block.node, Block.kind, SpriteLayout.kind, SpriteSet.kind]
    · rcases refers.set_or_group draft.registered referable with ⟨s, block⟩ | ⟨g, block⟩
      · cases (node?_of_block? block).symm.trans atJ
        simp [Block.node, Block.kind, SpriteLayout.kind, SpriteSet.kind]
      · cases (node?_of_block? block).symm.trans atJ
        simp [Block.node, Block.kind, SpriteLayout.kind, SpriteGroup.kind]
  · intro n cycle
    obtain ⟨i, _, loop⟩ := draft.drawn_onCycle_iff.mp cycle
    obtain ⟨g, block⟩ := group_of_loop draft.registered referable loop
    exact grounded i g block loop

/-- The first linking of a script, whatever happened before it but propagation. It passes exactly
when all references name sets and groups and no group is led back to by references, and then the
graph is that of the references; otherwise the error tells the first reference that is at fault, or
a group on a loop. -/
theorem link_exact (profile : Profile) (screen : Screen) (constants : List (String × Expr))
    (backend : Backend) (operations : List Operation) (unlinked : .link ∉ operations)
    (early : .propagate ∉ operations) :
    ((new profile screen constants backend).performAll operations).Judged := by
  have draft := (Draft.new profile screen constants backend).performAll unlinked early
  refine ⟨draft.link_passes_iff, draft.link_depicts, ?_⟩
  intro failure failed
  exact draft.link_fails failed

/-- A script as it stands right before it is linked. -/
def yardDraft : List Operation :=
  yard.declarations.map .make ++ [.add 0, .add 1, .add 2, .add 3, .validate]

theorem link_exact_yard : .link ∉ yardDraft ∧ .propagate ∉ yardDraft ∧
    ((new {} { width := 80 } [] echo).performAll yardDraft).link.1 = .ok () ∧
    ((new {} { width := 80 } [] echo).performAll yardDraft).collected.map (·.target.name) =
      ["walls", "house"] ∧
    ((new {} { width := 80 } [] echo).performAll yardDraft).Judged := by
  have unlinked : .link ∉ yardDraft := by simp [yardDraft]
  have early : .propagate ∉ yardDraft := by simp [yardDraft]
  exact ⟨unlinked, early, by decide +kernel, by decide +kernel,
    link_exact {} { width := 80 } [] echo yardDraft unlinked early⟩

end Grf.Compilation
