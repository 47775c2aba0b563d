import Grf.Compilation.Usage
import Grf.Proofs.Names
import Grf.Proofs.Propagation

namespace Grf.Compilation

variable {c after : Compilation}

/-- The edges from a node to all that the given references name. -/
def edgesTo (c : Compilation) (source : Node) (references : List Reference) : List (Node × Node) :=
  references.filterMap fun r => (c.ledger.find? r.target.name).map fun n => (source, n)

/-- The edges that a declaration draws. -/
def edgesOf (c : Compilation) (i : Nat) : List (Node × Node) :=
  match c.block? i with
  | none => []
  | some b => c.edgesTo (b.node i) b.references

/-- The compilation with more edges in its ledger. -/
def draw (c : Compilation) (edges : List (Node × Node)) : Compilation :=
  { c with ledger := { c.ledger with references := ⟨c.ledger.references.edges ++ edges⟩ } }

theorem draw_nil (c : Compilation) : c.draw [] = c := by
  simp only [draw, List.append_nil]

theorem draw_draw (c : Compilation) (first second : List (Node × Node)) :
    (c.draw first).draw second = c.draw (first ++ second) := by
  simp only [draw, List.append_assoc]

/-- References that are entered without failure draw one edge each. -/
theorem linkEach_ok {source : Node} {references : List Reference}
    (run : c.linkEach source references = (.ok (), after)) :
    after = c.draw (c.edgesTo source references) := by
  induction references generalizing c with
  | nil =>
    cases run
    exact (draw_nil _).symm
  | cons r rest ih =>
    unfold linkEach at run
    split at run
    · cases run
    · rename_i target resolved
      have found : c.ledger.find? r.target.name = some target := by
        unfold resolve at resolved
        split at resolved
        · cases resolved
          assumption
        · cases resolved
      split at run
      · split at run
        · cases run
        · rename_i ledger linked
          obtain ⟨_, rfl⟩ := Ledger.link_eq_ok.mp linked
          have drawn : after = (c.draw [(source, target)]).draw (c.edgesTo source rest) := ih run
          rw [drawn, draw_draw, edgesTo, edgesTo, List.filterMap_cons, found]
          rfl
      · cases run

theorem linkAll_ok {is : List Nat} (run : c.linkAll is = (.ok (), after)) :
    after = c.draw (is.flatMap c.edgesOf) := by
  induction is generalizing c with
  | nil =>
    cases run
    exact (draw_nil _).symm
  | cons i rest ih =>
    unfold linkAll at run
    split at run
    · rename_i none
      rw [ih run, List.flatMap_cons, edgesOf, none]
      rfl
    · rename_i b found
      split at run
      · cases run
      · rename_i mid linked
        have drawn := linkEach_ok linked
        subst drawn
        rw [ih run, draw_draw, List.flatMap_cons, edgesOf, found]
        rfl

theorem link_ok (run : c.link = (.ok (), after)) : after = c.draw (c.script.flatMap c.edgesOf) := by
  unfold link at run
  split at run
  · cases run
  · rename_i mid linked
    obtain ⟨_, rfl⟩ := Prod.mk.inj run
    exact linkAll_ok linked

/-- The reference names a block that others may refer to. -/
def Admits (c : Compilation) (r : Reference) : Prop :=
  ∃ n, c.ledger.find? r.target.name = some n ∧ isReferenceable n = true

theorem linkEach_iff {source : Node} {references : List Reference}
    (growing : c.ledger.carried = none) :
    (c.linkEach source references).1 = .ok () ↔ ∀ r ∈ references, c.Admits r := by
  induction references generalizing c with
  | nil => simp [linkEach]
  | cons r rest ih =>
    rw [List.forall_mem_cons, linkEach]
    cases found : c.ledger.find? r.target.name with
    | none => simp [resolve, Admits, found]
    | some target =>
      cases admitted : isReferenceable target with
      | false => simp [resolve, Admits, found, admitted]
      | true =>
        have linked : c.ledger.link source target = .ok _ := Ledger.link_eq_ok.mpr ⟨growing, rfl⟩
        have here : c.Admits r := ⟨target, found, admitted⟩
        simp only [resolve, found, admitted, linked, if_true, here, true_and]
        exact ih growing

theorem linkAll_iff {is : List Nat} (growing : c.ledger.carried = none) :
    (c.linkAll is).1 = .ok () ↔
      ∀ i ∈ is, ∀ d, c.block? i = some d → ∀ r ∈ d.references, c.Admits r := by
  induction is generalizing c with
  | nil => simp [linkAll]
  | cons i rest ih =>
    rw [List.forall_mem_cons, linkAll]
    cases found : c.block? i with
    | none => simpa using ih growing
    | some d =>
      have here : (c.linkEach (d.node i) d.references).1 = .ok () ↔ _ := linkEach_iff growing
      simp only [Option.some.injEq, forall_eq']
      cases run : c.linkEach (d.node i) d.references with
      | mk result mid =>
        rw [run] at here
        cases result with
        | error failure =>
          have refused : ¬ ∀ r ∈ d.references, c.Admits r := by
            intro all
            cases here.mpr all
          simp [refused]
        | ok =>
          have drawn := linkEach_ok run
          subst drawn
          rw [and_iff_right (here.mp rfl)]
          exact ih growing

/-- Linking succeeds if every reference is admitted and the graph that they draw has no cycle. -/
theorem link_iff (growing : c.ledger.carried = none) :
    c.link.1 = .ok () ↔
      (∀ i ∈ c.script, ∀ d, c.block? i = some d → ∀ r ∈ d.references, c.Admits r) ∧
        (c.draw (c.script.flatMap c.edgesOf)).ledger.checkCycles = .ok () := by
  rw [← linkAll_iff growing, link]
  cases run : c.linkAll c.script with
  | mk result mid =>
    cases result with
    | error failure => simp
    | ok => simp [linkAll_ok run]

/-- What linking, using and propagating leave as it is: all but the graph, the uses and the carried
features of the ledger. -/
def Recorded (c after : Compilation) : Prop :=
  ∃ references uses carried,
    after = { c with ledger := { c.ledger with references, uses, carried } }

theorem Recorded.trans {mid : Compilation} (first : Recorded c mid) (second : Recorded mid after) :
    Recorded c after := by
  obtain ⟨_, _, _, rfl⟩ := first
  obtain ⟨_, _, _, rfl⟩ := second
  exact ⟨_, _, _, rfl⟩

theorem Recorded.registered (recorded : Recorded c after) (registered : c.Registered) :
    after.Registered := by
  obtain ⟨_, _, _, rfl⟩ := recorded
  exact registered.congr rfl rfl fun _ => rfl

theorem link_recorded (run : c.link = (.ok (), after)) : Recorded c after :=
  ⟨_, _, _, link_ok run⟩

/-- The graph after linking, if there was none before. -/
theorem link_edges (run : c.link = (.ok (), after)) (none : c.ledger.references.edges = []) :
    after.ledger.references.edges = after.script.flatMap after.edgesOf := by
  rw [link_ok run]
  simp only [draw, none, List.nil_append]
  rfl

theorem use_ok {id : Identifier} {f : Feature} (run : c.use id f = (.ok (), after)) :
    ∃ n, c.ledger.find? id.name = some n ∧
      after = { c with ledger := { c.ledger with uses := c.ledger.uses ++ [(n, f)] } } := by
  unfold use at run
  split at run
  · cases run
  · split at run
    · cases run
    · rename_i n found
      split at run
      · cases run
      · rename_i ledger used
        cases run
        obtain ⟨_, rfl⟩ := Ledger.use_eq_ok.mp used
        exact ⟨n, found, rfl⟩

/-- A use that fails changes nothing. -/
theorem use_cases (c : Compilation) (id : Identifier) (f : Feature) :
    (c.use id f).2 = c ∨ ∃ n, (c.use id f).2 =
      { c with ledger := { c.ledger with uses := c.ledger.uses ++ [(n, f)] } } := by
  unfold use
  split
  · exact Or.inl rfl
  · split
    · exact Or.inl rfl
    · rename_i n _
      split
      · exact Or.inl rfl
      · rename_i ledger used
        obtain ⟨_, rfl⟩ := Ledger.use_eq_ok.mp used
        exact Or.inr ⟨n, rfl⟩

/-- Direct uses that are entered one after the other, each without failure. -/
inductive Uses : Compilation → List (Identifier × Feature) → Compilation → Prop
  | nil {start} : Uses start [] start
  | cons {start next last id f rest} : start.use id f = (.ok (), next) → Uses next rest last →
      Uses start ((id, f) :: rest) last

theorem Uses.ledger {uses : List (Identifier × Feature)} (entered : Uses c uses after) :
    after = { c with ledger := { c.ledger with
      uses := c.ledger.uses ++ uses.filterMap fun use =>
        (c.ledger.find? use.1.name).map fun n => (n, use.2) } } := by
  induction entered with
  | nil => simp only [List.filterMap_nil, List.append_nil]
  | cons run _ ih =>
    obtain ⟨n, found, rfl⟩ := use_ok run
    rw [ih, List.filterMap_cons, found]
    simp only [Option.map_some, List.append_assoc, List.singleton_append]
    rfl

theorem Uses.recorded {uses : List (Identifier × Feature)} (entered : Uses c uses after) :
    Recorded c after :=
  ⟨_, _, _, entered.ledger⟩

theorem Uses.edges {uses : List (Identifier × Feature)} (entered : Uses c uses after)
    (edges : c.ledger.references.edges = c.script.flatMap c.edgesOf) :
    after.ledger.references.edges = after.script.flatMap after.edgesOf := by
  rw [entered.ledger]
  exact edges

theorem Uses.uses {uses : List (Identifier × Feature)} (entered : Uses c uses after)
    (none : c.ledger.uses = []) :
    after.ledger.uses = uses.filterMap fun use =>
      (after.ledger.find? use.1.name).map fun n => (n, use.2) := by
  rw [entered.ledger]
  simp only [none, List.nil_append]
  rfl

theorem propagate_ok (run : c.propagate = (.ok (), after)) :
    ∃ ledger, c.ledger.propagate = .ok ledger ∧ after = { c with ledger } := by
  unfold propagate at run
  split at run
  · cases run
  · rename_i ledger propagated
    cases run
    exact ⟨ledger, propagated, rfl⟩

theorem propagate_recorded (run : c.propagate = (.ok (), after)) :
    Recorded c after ∧ after.ledger.isPropagated = true := by
  obtain ⟨ledger, propagated, rfl⟩ := propagate_ok run
  obtain ⟨carried, rfl, _⟩ := Ledger.carried_of_propagate propagated
  exact ⟨⟨_, _, _, rfl⟩, rfl⟩

/-- The edges that the script draws are its references, read by name. -/
theorem mem_edges_iff (registered : c.Registered) {a m : Node} :
    (a, m) ∈ c.script.flatMap c.edgesOf ↔
      ∃ i j, c.Refers i j ∧ c.node? i = some a ∧ c.node? j = some m := by
  constructor
  · intro member
    obtain ⟨i, inScript, drawn⟩ := List.mem_flatMap.mp member
    unfold edgesOf at drawn
    split at drawn
    · cases drawn
    · rename_i b found
      obtain ⟨r, inBlock, drawn⟩ := List.mem_filterMap.mp drawn
      obtain ⟨n, known, same⟩ := Option.map_eq_some_iff.mp drawn
      cases same
      obtain ⟨j, named, atJ⟩ := registered.find?_eq_some.mp known
      exact ⟨i, j, ⟨inScript, b, found, r, inBlock, named⟩, node?_of_block? found, atJ⟩
  · rintro ⟨i, j, ⟨inScript, b, found, r, inBlock, named⟩, atI, atJ⟩
    cases (node?_of_block? found).symm.trans atI
    refine List.mem_flatMap.mpr ⟨i, inScript, ?_⟩
    simp only [edgesOf, found]
    refine List.mem_filterMap.mpr ⟨r, inBlock, ?_⟩
    rw [registered.find?_eq_some.mpr ⟨j, named, atJ⟩, Option.map_some]

theorem edge_iff (registered : c.Registered)
    (edges : c.ledger.references.edges = c.script.flatMap c.edgesOf) {a m : Node} :
    c.ledger.references.Edge a m ↔
      ∃ i j, c.Refers i j ∧ c.node? i = some a ∧ c.node? j = some m := by
  rw [Graph.Edge, edges]
  exact mem_edges_iff registered

theorem Refers.exists_node {i j : Nat} (refers : c.Refers i j) : ∃ n, c.node? j = some n := by
  obtain ⟨_, _, _, _, _, _, n, atJ, _⟩ := refers
  exact ⟨n, atJ⟩

/-- A path in the ledger is a chain of references in the script. -/
theorem path_iff (registered : c.Registered)
    (edges : c.ledger.references.edges = c.script.flatMap c.edgesOf) {r : Nat} {a m : Node}
    (atR : c.node? r = some a) :
    c.ledger.references.Path a m ↔
      ∃ j, Relation.ReflTransGen c.Refers r j ∧ c.node? j = some m := by
  constructor
  · intro path
    induction path with
    | refl => exact ⟨r, .refl, atR⟩
    | tail _ step ih =>
      obtain ⟨k, chain, atK⟩ := ih
      obtain ⟨i, j, refers, atI, atJ⟩ := (edge_iff registered edges).mp step
      cases node?_injective atI atK
      exact ⟨j, chain.tail refers, atJ⟩
  · rintro ⟨j, chain, atJ⟩
    induction chain generalizing m with
    | refl =>
      cases atR.symm.trans atJ
      exact Graph.Path.refl a
    | @tail k j _ refers ih =>
      obtain ⟨b, atK, _⟩ := refers.2
      exact (ih (node?_of_block? atK)).tail
        ((edge_iff registered edges).mpr ⟨k, j, refers, node?_of_block? atK, atJ⟩)

end Grf.Compilation
