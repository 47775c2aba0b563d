import Grf.Proofs.Capacity
import Grf.Proofs.Cycles
import Grf.Proofs.ValidationOrder

namespace Grf.Compilation

variable {a b c after : Compilation}

/-- Enters direct uses one after the other. One that is refused changes nothing. -/
def useAll (c : Compilation) (uses : List (Identifier × Feature)) : Compilation :=
  uses.foldl (fun c use => (c.use use.1 use.2).2) c

/-- The script is known, and features are not propagated yet. -/
structure Growing (c : Compilation) : Prop where
  registered : c.Registered
  carried : c.ledger.carried = none
  prepared : c.ledger.prepared = []
  allocations : c.ledger.allocations = []

theorem Growing.congr (growing : c.Growing) (script : after.script = c.script)
    (ledger : after.ledger = c.ledger) (nodes : ∀ i, after.node? i = c.node? i) :
    after.Growing where
  registered := growing.registered.congr script (by rw [ledger]) nodes
  carried := by rw [ledger, growing.carried]
  prepared := by rw [ledger, growing.prepared]
  allocations := by rw [ledger, growing.allocations]

theorem Growing.recorded (growing : c.Growing) (recorded : Recorded c after)
    (carried : after.ledger.carried = none) : after.Growing := by
  have registered := recorded.registered growing.registered
  obtain ⟨_, _, _, rfl⟩ := recorded
  exact ⟨registered, carried, growing.prepared, growing.allocations⟩

/-- The same declarations, added in two orders. The order shows in that of the ledger. -/
structure Rearranged (a b : Compilation) : Prop where
  first : a.Growing
  second : b.Growing
  declarations : b.declarations = a.declarations
  script : a.script.Perm b.script
  edge : b.ledger.references.Edge = a.ledger.references.Edge
  uses : b.ledger.uses = a.ledger.uses
  capacity : b.ledger.capacity = a.ledger.capacity

namespace Rearranged

theorem node? (rearranged : Rearranged a b) : b.node? = a.node? :=
  funext (node?_congr rearranged.declarations)

theorem mem_nodes (rearranged : Rearranged a b) {n : Node} :
    n ∈ b.ledger.nodes ↔ n ∈ a.ledger.nodes := by
  rw [rearranged.second.registered.nodes, rearranged.first.registered.nodes, rearranged.node?]
  exact (rearranged.script.filterMap _).mem_iff.symm

/-- Names are unique, so a name finds the same block in both orders. -/
theorem find? (rearranged : Rearranged a b) : b.ledger.find? = a.ledger.find? := by
  funext name
  refine Option.ext fun n => ?_
  rw [rearranged.second.registered.find?_eq_some, rearranged.first.registered.find?_eq_some]
  simp only [Names, rearranged.node?, rearranged.script.mem_iff]

theorem scope (rearranged : Rearranged a b) (constants : b.constants = a.constants) :
    b.scope = a.scope := by
  rw [Compilation.scope, Compilation.scope, constants, rearranged.find?]

/-- Validation keeps scripts and ledgers, so what it makes alike of the declarations is enough. -/
theorem validate {afterA afterB : Compilation} (rearranged : Rearranged a b)
    (runA : a.validate = (.ok (), afterA)) (runB : b.validate = (.ok (), afterB))
    (alike : Alike afterA afterB) : Rearranged afterA afterB := by
  have revisedA := (validateEach_revised runA).1
  have revisedB := (validateEach_revised runB).1
  exact
    { first := rearranged.first.congr revisedA.script revisedA.ledger revisedA.nodes
      second := rearranged.second.congr revisedB.script revisedB.ledger revisedB.nodes
      declarations := alike.declarations
      script := by
        rw [revisedA.script, revisedB.script]
        exact rearranged.script
      edge := by rw [revisedA.ledger, revisedB.ledger, rearranged.edge]
      uses := by rw [revisedA.ledger, revisedB.ledger, rearranged.uses]
      capacity := by rw [revisedA.ledger, revisedB.ledger, rearranged.capacity] }

theorem edgesOf (rearranged : Rearranged a b) : b.edgesOf = a.edgesOf := by
  funext i
  unfold Compilation.edgesOf edgesTo
  rw [block?_congr rearranged.declarations, rearranged.find?]

theorem path (rearranged : Rearranged a b) :
    b.ledger.references.Path = a.ledger.references.Path := by
  rw [Graph.Path, rearranged.edge, Graph.Path]

theorem checkCycles (rearranged : Rearranged a b) :
    b.ledger.checkCycles = .ok () ↔ a.ledger.checkCycles = .ok () := by
  simp only [Ledger.checkCycles_eq_ok, rearranged.mem_nodes, rearranged.path, Graph.OnCycle,
    rearranged.edge]

theorem draw (rearranged : Rearranged a b) :
    Rearranged (a.draw (a.script.flatMap a.edgesOf)) (b.draw (b.script.flatMap b.edgesOf)) where
  first := rearranged.first.recorded ⟨_, _, _, rfl⟩ rearranged.first.carried
  second := rearranged.second.recorded ⟨_, _, _, rfl⟩ rearranged.second.carried
  declarations := rearranged.declarations
  script := rearranged.script
  edge := by
    funext n m
    have drawn : (n, m) ∈ b.script.flatMap b.edgesOf ↔ (n, m) ∈ a.script.flatMap a.edgesOf := by
      rw [rearranged.edgesOf]
      exact (rearranged.script.flatMap_right _).mem_iff.symm
    have known : ((n, m) ∈ b.ledger.references.edges) = ((n, m) ∈ a.ledger.references.edges) :=
      congrFun₂ rearranged.edge n m
    simp only [Graph.Edge, Compilation.draw, List.mem_append, known, drawn]
  uses := rearranged.uses
  capacity := rearranged.capacity

theorem link_iff (rearranged : Rearranged a b) :
    a.link.1 = .ok () ↔ b.link.1 = .ok () := by
  have admits : b.Admits = a.Admits := by
    funext r
    rw [Admits, rearranged.find?, Admits]
  rw [Compilation.link_iff rearranged.first.carried, Compilation.link_iff rearranged.second.carried,
    rearranged.draw.checkCycles]
  simp only [admits, block?_congr rearranged.declarations, rearranged.script.mem_iff]

theorem link (rearranged : Rearranged a b) (passed : a.link.1 = .ok ()) :
    Rearranged a.link.2 b.link.2 := by
  have passedB := rearranged.link_iff.mp passed
  rw [link_ok (Prod.ext passed rfl : a.link = (.ok (), a.link.2)),
    link_ok (Prod.ext passedB rfl : b.link = (.ok (), b.link.2))]
  exact rearranged.draw

theorem use (rearranged : Rearranged a b) (id : Identifier) (f : Feature) :
    Rearranged (a.use id f).2 (b.use id f).2 := by
  unfold Compilation.use
  rw [rearranged.find?]
  split
  · exact rearranged
  · split
    · exact rearranged
    · rename_i n found
      -- Both ledgers are open, and the name stands for the same node in both.
      have usedA : a.ledger.use n f = .ok _ := Ledger.use_eq_ok.mpr ⟨rearranged.first.carried, rfl⟩
      have usedB : b.ledger.use n f = .ok _ := Ledger.use_eq_ok.mpr ⟨rearranged.second.carried, rfl⟩
      rw [usedA, usedB]
      exact
        { first := rearranged.first.recorded ⟨_, _, _, rfl⟩ rearranged.first.carried
          second := rearranged.second.recorded ⟨_, _, _, rfl⟩ rearranged.second.carried
          declarations := rearranged.declarations
          script := rearranged.script
          edge := rearranged.edge
          uses := congrArg (· ++ [(n, f)]) rearranged.uses
          capacity := rearranged.capacity }

theorem useAll (rearranged : Rearranged a b) (uses : List (Identifier × Feature)) :
    Rearranged (a.useAll uses) (b.useAll uses) := by
  induction uses generalizing a b with
  | nil => exact rearranged
  | cons use rest ih => exact ih (rearranged.use use.1 use.2)

end Rearranged

theorem Growing.propagate (growing : c.Growing) :
    ∃ after, c.propagate = (.ok (), after) ∧ Recorded c after ∧ after.Unprepared ∧
      ∀ n f, f ∈ (after.ledger.features n).toList ↔
        ∃ r, (r, f) ∈ c.ledger.uses ∧ c.ledger.references.Path r n := by
  obtain ⟨carried, run⟩ := Ledger.propagate_eq growing.carried
  have propagated : c.propagate =
      (.ok (), { c with ledger := { c.ledger with carried := some carried } }) := by
    simp only [Compilation.propagate, run]
  obtain ⟨recorded, isPropagated⟩ := propagate_recorded propagated
  exact ⟨_, propagated, recorded,
    recorded.unprepared growing.registered isPropagated growing.prepared growing.allocations,
    fun _ _ => Ledger.mem_features_of_propagate run⟩

/-- The first phase of output fails for want of IDs. -/
def RunsOut (c : Compilation) : Prop :=
  ∃ error, c.preparation.1 = .error (.script error) ∧ error.kind = .capacity

/-- Nothing else can go wrong in the first phase. -/
theorem Unprepared.runsOut_iff (unprepared : c.Unprepared) :
    c.RunsOut ↔ ¬ c.preparation.1 = .ok () := by
  constructor
  · rintro ⟨error, failed, _⟩ passed
    cases failed.symm.trans passed
  · intro fails
    cases result : c.preparation.1 with
    | ok => exact absurd result fails
    | error failure =>
      obtain ⟨_, _, _, _, _, _, _, _, rfl⟩ := unprepared.overflows (Prod.ext result rfl)
      exact ⟨_, result, rfl⟩

/-- Whether the IDs suffice is a matter of how many declarations there are for a feature. -/
theorem Unprepared.runsOut_congr (first : a.Unprepared) (second : b.Unprepared)
    (script : a.script.Perm b.script) (carries : b.carries = a.carries)
    (capacity : b.ledger.capacity = a.ledger.capacity) : a.RunsOut ↔ b.RunsOut := by
  rw [first.runsOut_iff, second.runsOut_iff, preparation, preparation,
    first.prepareEach_ok_iff, second.prepareEach_ok_iff, carries, capacity]
  simp only [script.mem_iff, script.countP_eq]

theorem Rearranged.propagate (rearranged : Rearranged a b) :
    ∃ afterA afterB, a.propagate = (.ok (), afterA) ∧ b.propagate = (.ok (), afterB) ∧
      (∀ i, afterB.features i = afterA.features i) ∧ (afterA.RunsOut ↔ afterB.RunsOut) := by
  obtain ⟨afterA, runA, recordedA, unpreparedA, reachedA⟩ := rearranged.first.propagate
  obtain ⟨afterB, runB, recordedB, unpreparedB, reachedB⟩ := rearranged.second.propagate
  have kept : afterB.declarations = afterA.declarations ∧ afterA.script.Perm afterB.script ∧
      afterB.ledger.capacity = afterA.ledger.capacity := by
    obtain ⟨_, _, _, rfl⟩ := recordedA
    obtain ⟨_, _, _, rfl⟩ := recordedB
    exact ⟨rearranged.declarations, rearranged.script, rearranged.capacity⟩
  obtain ⟨declarations, script, capacity⟩ := kept
  -- Roots and paths are the same, and a set of features has only one order.
  have features (i : Nat) : afterB.features i = afterA.features i := by
    unfold Compilation.features
    rw [node?_congr declarations]
    cases afterA.node? i with
    | none => rfl
    | some n =>
      refine FeatureSet.toList_eq fun f => ?_
      rw [reachedA, reachedB, rearranged.uses, rearranged.path]
  have carries : afterB.carries = afterA.carries := by
    funext f i
    unfold Compilation.carries
    rw [block?_congr declarations, features]
  exact ⟨afterA, afterB, runA, runB, features,
    unpreparedA.runsOut_congr unpreparedB script carries capacity⟩

/-- A compilation in which declarations are made, and none of them is added yet. -/
def drafted (profile : Profile) (screen : Screen) (constants : List (String × Expr))
    (backend : Backend) (declarations : List Declaration) : Compilation :=
  declarations.foldl make (.new profile screen constants backend)

theorem foldl_make (c : Compilation) (declarations : List Declaration) :
    declarations.foldl make c = { c with declarations := c.declarations ++ declarations } := by
  induction declarations generalizing c with
  | nil => simp only [List.foldl_nil, List.append_nil]
  | cons d rest ih =>
    rw [List.foldl_cons, ih]
    simp only [make, List.append_assoc, List.singleton_append]

/-- No declaration is added yet. -/
structure Blank (c : Compilation) : Prop where
  script : c.script = []
  nodes : c.ledger.nodes = []
  carried : c.ledger.carried = none
  prepared : c.ledger.prepared = []
  allocations : c.ledger.allocations = []

theorem drafted_blank (profile : Profile) (screen : Screen) (constants : List (String × Expr))
    (backend : Backend) (declarations : List Declaration) :
    (drafted profile screen constants backend declarations).Blank := by
  rw [drafted, foldl_make]
  exact ⟨rfl, rfl, rfl, rfl, rfl⟩

/-- Two orders of blocks with different names, each after the same templates. -/
structure Orders (c : Compilation) (templates first second : List Nat) : Prop where
  templates : ∀ i ∈ templates, ∃ t contents, c.declarations[i]? = some (.template t contents)
  blocks : ∀ i ∈ first, ∃ d, c.block? i = some d
  names : ((first.filterMap c.node?).map fun n => n.name.name).Nodup
  perm : first.Perm second

namespace Orders

variable {templates first second : List Nat}

theorem symm (orders : c.Orders templates first second) : c.Orders templates second first where
  templates := orders.templates
  blocks i member := orders.blocks i (orders.perm.mem_iff.mpr member)
  names := ((orders.perm.filterMap _).map _).nodup_iff.mp orders.names
  perm := orders.perm.symm

theorem nodes (orders : c.Orders templates first second) :
    (templates ++ first).filterMap c.node? = first.filterMap c.node? := by
  have none : templates.filterMap c.node? = [] := by
    refine List.filterMap_eq_nil_iff.mpr fun i member => ?_
    obtain ⟨t, contents, found⟩ := orders.templates i member
    simp [node?, block?, found]
  rw [List.filterMap_append, none, List.nil_append]

theorem inside (orders : c.Orders templates first second) :
    ∀ i ∈ templates ++ first, i < c.declarations.length := by
  intro i member
  rcases List.mem_append.mp member with early | late
  · obtain ⟨t, contents, found⟩ := orders.templates i early
    exact (List.getElem?_eq_some_iff.mp found).1
  · obtain ⟨d, found⟩ := orders.blocks i late
    exact (List.getElem?_eq_some_iff.mp (block?_eq_some.mp found)).1

/-- A block that is added twice has its own name twice. -/
theorem distinct (orders : c.Orders templates first second) : first.Nodup := by
  refine List.nodup_iff_sublist.mpr fun i twice => ?_
  obtain ⟨d, found⟩ := orders.blocks i (twice.subset List.mem_cons_self)
  have atI := node?_of_block? found
  have sameTwice := twice.filterMap c.node?
  rw [List.filterMap_cons_some atI, List.filterMap_cons_some atI] at sameTwice
  exact List.nodup_iff_sublist.mp orders.names.of_map _ sameTwice

theorem growing (orders : c.Orders templates first second) (blank : c.Blank) :
    (c.enroll (templates ++ first)).Growing where
  registered := by
    have script : (c.enroll (templates ++ first)).script = templates ++ first :=
      congrArg (· ++ _) blank.script
    have nodes : (c.enroll (templates ++ first)).ledger.nodes = first.filterMap c.node? := by
      rw [← orders.nodes]
      exact congrArg (· ++ _) blank.nodes
    refine ⟨?_, ?_⟩
    · rw [nodes, script]
      exact orders.nodes.symm
    · rw [nodes]
      exact orders.names
  carried := blank.carried
  prepared := blank.prepared
  allocations := blank.allocations

theorem addEach (orders : c.Orders templates first second) (blank : c.Blank) :
    c.addEach (templates ++ first) = (.ok (), c.enroll (templates ++ first)) := by
  have growing := orders.growing blank
  exact addEach_ok orders.inside growing.carried growing.registered.names

theorem rearranged (orders : c.Orders templates first second) (blank : c.Blank) :
    Rearranged (c.enroll (templates ++ first)) (c.enroll (templates ++ second)) where
  first := orders.growing blank
  second := orders.symm.growing blank
  declarations := rfl
  script := (orders.perm.append_left templates).append_left c.script
  edge := rfl
  uses := rfl
  capacity := rfl

theorem validate (orders : c.Orders templates first second) (blank : c.Blank)
    (run : (c.enroll (templates ++ first)).validate = (.ok (), after)) :
    ∃ afterB, (c.enroll (templates ++ second)).validate = (.ok (), afterB) ∧
      Rearranged after afterB := by
  have rearranged := orders.rearranged blank
  have alike : Alike (c.enroll (templates ++ first)) (c.enroll (templates ++ second)) :=
    ⟨rfl, rfl, rearranged.scope rfl⟩
  have whole (is : List Nat) : (c.enroll is).validate = (c.enroll is).validateEach is := by
    have script : (c.enroll is).script = is := congrArg (· ++ is) blank.script
    rw [Compilation.validate, script]
  obtain ⟨afterB, runB, alikeAfter⟩ := alike.validateEach_perm orders.distinct orders.blocks
    orders.perm ((whole _).symm.trans run)
  have passed := (whole _).trans runB
  exact ⟨afterB, passed, rearranged.validate run passed alikeAfter⟩

end Orders

/-- The order in which blocks are added, after the templates, plays no part in the analysis of their
use. Validation succeeds for both orders or for none, and leaves the same declarations, references
and labels included. Linking, too, succeeds for both or for none. Whatever uses are entered then,
every declaration has the same features, and IDs are missing in both orders or in none. -/
theorem usage_perm {profile : Profile} {screen : Screen} {constants : List (String × Expr)}
    {backend : Backend} {declarations : List Declaration} {templates first second : List Nat}
    (orders : (drafted profile screen constants backend declarations).Orders
      templates first second) :
    ∃ a b, (drafted profile screen constants backend declarations).addEach
        (templates ++ first) = (.ok (), a) ∧
      (drafted profile screen constants backend declarations).addEach
        (templates ++ second) = (.ok (), b) ∧
      (a.validate.1 = .ok () ↔ b.validate.1 = .ok ()) ∧
      (a.validate.1 = .ok () →
        b.validate.2.declarations = a.validate.2.declarations ∧
        (a.validate.2.link.1 = .ok () ↔ b.validate.2.link.1 = .ok ()) ∧
        (a.validate.2.link.1 = .ok () → ∀ uses, ∃ usedA usedB,
          (a.validate.2.link.2.useAll uses).propagate = (.ok (), usedA) ∧
          (b.validate.2.link.2.useAll uses).propagate = (.ok (), usedB) ∧
          (∀ i, usedB.features i = usedA.features i) ∧ (usedA.RunsOut ↔ usedB.RunsOut))) := by
  have blank := drafted_blank profile screen constants backend declarations
  refine ⟨_, _, orders.addEach blank, orders.symm.addEach blank, ⟨?_, ?_⟩, ?_⟩
  · intro passed
    obtain ⟨_, run, _⟩ := orders.validate blank (Prod.ext passed rfl)
    rw [run]
  · intro passed
    obtain ⟨_, run, _⟩ := orders.symm.validate blank (Prod.ext passed rfl)
    rw [run]
  · intro passed
    obtain ⟨_, run, rearranged⟩ := orders.validate blank (Prod.ext passed rfl)
    rw [run]
    exact ⟨rearranged.declarations, rearranged.link_iff, fun linked uses =>
      ((rearranged.link linked).useAll uses).propagate⟩

/-- A template, a set that uses it, a group of that set and a layout of that group, with one ID for
each feature. -/
def hamlet : Compilation :=
  drafted { maxIds := 1 } { width := 80 } [] echo
    [.template ⟨⟨"tile", none⟩, [], [.real [⟨"base", none⟩] [] none], none⟩ none,
      .block (.set ⟨⟨"walls", none⟩, none, [.use ⟨"tile", none⟩ [] none none], none, {}, -1, {}⟩),
      .block (.group ⟨⟨"house", none⟩,
        [⟨⟨"default", none⟩, [.ident ⟨"walls", none⟩], none⟩], none, {}⟩),
      .block (.layout ⟨⟨"lane", none⟩, [],
        [⟨⟨"building", none⟩, [⟨⟨"sprite", none⟩, .ident ⟨"house", none⟩⟩], none⟩], none, {}⟩)]

/-- In the second order all references look ahead, and the only ID goes to the layout instead of the
group. -/
theorem usage_perm_hamlet :
    hamlet.Orders [0] [1, 2, 3] [3, 2, 1] ∧
      ∃ b used, hamlet.addEach [0, 3, 2, 1] = (.ok (), b) ∧
        b.validate.1 = .ok () ∧ b.validate.2.link.1 = .ok () ∧
        (b.validate.2.link.2.useAll [(⟨"lane", none⟩, ⟨7⟩)]).propagate = (.ok (), used) ∧
        used.features 1 = [⟨7⟩] ∧ used.RunsOut := by
  have orders : hamlet.Orders [0] [1, 2, 3] [3, 2, 1] :=
    { templates := by
        intro i member
        cases List.mem_singleton.mp member
        exact ⟨_, _, rfl⟩
      blocks := by
        simp only [List.forall_mem_cons]
        exact ⟨⟨_, rfl⟩, ⟨_, rfl⟩, ⟨_, rfl⟩, by simp⟩
      names := by decide +kernel
      perm := by decide }
  obtain ⟨a, b, runA, runB, validates, analysed⟩ := usage_perm orders
  have added : (hamlet.addEach [0, 1, 2, 3]).2 = a := congrArg Prod.snd runA
  subst added
  have passed := validates.mp (by decide +kernel)
  obtain ⟨_, links, propagated⟩ := analysed (by decide +kernel)
  have linked := links.mp (by decide +kernel)
  obtain ⟨usedA, usedB, useA, useB, features, runsOut⟩ :=
    propagated (by decide +kernel) [(⟨"lane", none⟩, ⟨7⟩)]
  have used : Prod.snd (propagate _) = usedA := congrArg Prod.snd useA
  subst used
  refine ⟨orders, b, usedB, runB, passed, linked, useB, ?_, runsOut.mp ?_⟩
  · rw [features]
    decide +kernel
  · exact ⟨⟨.idsExhausted "spritelayout" "lane" ⟨7⟩, none, none⟩, by decide +kernel, rfl⟩

end Grf.Compilation
