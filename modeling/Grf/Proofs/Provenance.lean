import Grf.Proofs.Linking
import Grf.Proofs.Registration
import Grf.Proofs.Settling

namespace Grf.Compilation

variable {c after : Compilation} {i : Nat} {b : Block} {constants : List (String × Expr)}
  {given : List Declaration} {d : Declaration}

/-- A reply changes the lifecycle of a block, or the number of a set. -/
theorem reply_cases (c : Compilation) (i : Nat) (b : Block) (used : Except Failure Bool) :
    (∃ s t, b = .set s ∧ (c.reply i b used).2.2 = .set t) ∨
      ∃ e, (c.reply i b used).2.2 = b.withLifecycle e := by
  cases used with
  | error failure => exact Or.inr ⟨_, rfl⟩
  | ok used =>
    cases used with
    | false => exact Or.inr ⟨_, rfl⟩
    | true =>
      cases b with
      | set s =>
        refine Or.inl ⟨s, ?_⟩
        simp only [reply, encode]
        split
        · exact ⟨_, trivial, rfl⟩
        · split <;> exact ⟨_, trivial, rfl⟩
      | group g =>
        right
        simp only [reply, encode]
        split <;> exact ⟨_, rfl⟩
      | layout l =>
        right
        simp only [reply, encode]
        split <;> exact ⟨_, rfl⟩

theorem reply_refined (validated : b.lifecycle.stage ≠ .unvalidated) (scope : Scope)
    (c : Compilation) (i : Nat) (used : Except Failure Bool) :
    b.Refined scope (c.reply i b used).2.2 := by
  rcases c.reply_cases i b used with ⟨s, t, rfl, replied⟩ | ⟨e, replied⟩
  · rw [replied]
    exact ⟨.nil, id⟩
  · rw [replied]
    exact Block.refined_withLifecycle validated scope e

/-- The same declarations under the same names, with some of their expressions reduced. -/
structure Refines (c after : Compilation) : Prop where
  constants : after.constants = c.constants
  script : after.script = c.script
  length : after.declarations.length = c.declarations.length
  names : after.ledger.nodes = c.ledger.nodes
  nodes : ∀ i, after.node? i = c.node? i
  blocks : ∀ i b, after.block? i = some b → ∃ a, c.block? i = some a ∧ a.Refined c.scope b

namespace Refines

/-- The same declarations, whatever else differs. -/
theorem of_eq (constants : after.constants = c.constants) (script : after.script = c.script)
    (declarations : after.declarations = c.declarations)
    (names : after.ledger.nodes = c.ledger.nodes) : Refines c after where
  constants := constants
  script := script
  length := by rw [declarations]
  names := names
  nodes i := node?_congr declarations i
  blocks i b found := ⟨b, (block?_congr declarations i).symm.trans found, .refl c.scope b⟩

theorem refl (c : Compilation) : Refines c c :=
  .of_eq rfl rfl rfl rfl

theorem of_keeps (keeps : Keeps c after) (constants : after.constants = c.constants)
    (blocks : ∀ i b, after.block? i = some b → ∃ a, c.block? i = some a ∧ a.Refined c.scope b) :
    Refines c after := by
  obtain ⟨_, _, _, ledger⟩ := keeps.ledger
  exact ⟨constants, keeps.script, keeps.length, by rw [ledger], keeps.nodes, blocks⟩

theorem of_progressed (progressed : Progressed c after) : Refines c after := by
  obtain ⟨_, _, _, rfl⟩ := progressed.frame
  exact .of_eq rfl rfl rfl rfl

theorem scope_eq (refines : Refines c after) : after.scope = c.scope := by
  unfold scope Ledger.find?
  rw [refines.constants, refines.names]

end Refines

/-- One block is replaced. -/
theorem refined_update {a : Block} (found : c.block? i = some a) (refined : a.Refined c.scope b) :
    ∀ j b', (c.update i (.block b)).block? j = some b' →
      ∃ a', c.block? j = some a' ∧ a'.Refined c.scope b' := by
  intro j b' atJ
  rw [block?_update found] at atJ
  split at atJ
  · rename_i same
    cases atJ
    exact ⟨a, same ▸ found, refined⟩
  · exact ⟨b', atJ, .refl c.scope b'⟩

theorem register_refines (c : Compilation) (i : Nat) : Refines c (c.register i).2 := by
  obtain ⟨revised, blocks⟩ := register_revised (c := c) (i := i) rfl
  refine .of_keeps (.of_revised revised (c.length_register i)) ?_ ?_
  · rcases c.register_cases i with same | ⟨_, _, _, _, _, _, registered⟩
    · rw [same]
    · rw [registered]
      rfl
  · intro j b atJ
    exact ⟨b, (blocks j).symm.trans atJ, .refl c.scope b⟩

theorem validateOne_refines (c : Compilation) (i : Nat) : Refines c (c.validateOne i).2 := by
  refine .of_keeps (.of_revised (validateOne_revised rfl).1 (c.length_validateOne i)) ?_ ?_
  · unfold validateOne
    split
    · rfl
    · exact (c.register_refines i).constants
    · split <;> rfl
    · rfl
    · rfl
  · unfold validateOne
    split
    · exact (Refines.refl c).blocks
    · exact (c.register_refines i).blocks
    · rename_i s found
      split
      · exact (Refines.refl c).blocks
      · exact refined_update (block?_eq_some.mpr found) ⟨.nil, id⟩
    · rename_i g found
      exact refined_update (block?_eq_some.mpr found) (g.validate_refined c.scope)
    · rename_i l found
      exact refined_update (block?_eq_some.mpr found) (l.validate_refined c.scope)

theorem link_refines (c : Compilation) : Refines c c.link.2 := by
  obtain ⟨edges, drawn⟩ := c.link_draws
  rw [drawn]
  exact .of_eq rfl rfl rfl rfl

theorem use_refines (c : Compilation) (id : Identifier) (f : Feature) :
    Refines c (c.use id f).2 := by
  rcases c.use_cases id f with same | ⟨n, used⟩
  · rw [same]
    exact .refl c
  · rw [used]
    exact .of_eq rfl rfl rfl rfl

theorem propagate_refines (c : Compilation) : Refines c c.propagate.2 := by
  unfold propagate Ledger.propagate
  split
  · exact .refl c
  · rename_i run
    split at run
    · cases run
    · cases run
      exact .of_eq rfl rfl rfl rfl

theorem actions_refines (c : Compilation) (i : Nat) : Refines c (c.actions i).2 := by
  rcases c.actions_cases i with same | ⟨b, found, pending⟩
  · rw [same]
    exact .refl c
  · refine .of_keeps (c.actions_keeps i) ?_ ?_
    · rw [actions_reply found pending]
      exact (Refines.of_progressed (c.prepare_progressed i)).constants
    · intro j b' atJ
      rw [block?_actions found pending] at atJ
      split at atJ
      · rename_i same
        cases atJ
        exact ⟨b, same ▸ found, reply_refined (Block.standing?_eq_none.mp pending).1 c.scope _ i _⟩
      · exact ⟨b', atJ, .refl c.scope b'⟩

/-- The expressions of all blocks come, place by place, from those that were given. -/
structure Rooted (constants : List (String × Expr)) (given : List Declaration) (c : Compilation) :
    Prop where
  plain : ∀ entry ∈ constants, entry.2.isPlain = true
  constants : c.constants = constants
  registered : c.Registered
  inside : ∀ i ∈ c.script, i < c.declarations.length
  length : c.declarations.length = given.length
  blocks : ∀ i b, c.block? i = some b → ∃ d, given[i]? = some d ∧
    List.Forall₂ c.scope.Became d.expressions b.expressions ∧ (d.IsNew → b.IsComplete)

namespace Rooted

theorem refines (rooted : Rooted constants given c) (refines : Refines c after) :
    Rooted constants given after where
  plain := rooted.plain
  constants := refines.constants.trans rooted.constants
  registered := rooted.registered.congr refines.script refines.names refines.nodes
  inside := by
    rw [refines.script, refines.length]
    exact rooted.inside
  length := refines.length.trans rooted.length
  blocks := by
    intro i b atI
    obtain ⟨a, before, refined⟩ := refines.blocks i b atI
    obtain ⟨d, atGiven, became, complete⟩ := rooted.blocks i a before
    have plain : ∀ entry ∈ c.constants, entry.2.isPlain = true := rooted.constants ▸ rooted.plain
    rw [refines.scope_eq]
    refine ⟨d, atGiven, ?_, refined.complete ∘ complete⟩
    exact forall₂_comp (fun first second => first.refine plain second) became refined.expressions

theorem make (rooted : Rooted constants given c) (plain : ∀ e ∈ d.expressions, e.isPlain = true) :
    Rooted constants (given ++ [d]) (c.make d) where
  plain := rooted.plain
  constants := rooted.constants
  registered := rooted.registered.make rooted.inside d
  inside := inside_make rooted.inside d
  length := by simp only [Compilation.make, List.length_append, rooted.length]
  blocks := by
    intro i b atI
    rcases Nat.lt_or_ge i c.declarations.length with old | new
    · rw [block?_make d old] at atI
      obtain ⟨a, atGiven, became⟩ := rooted.blocks i b atI
      rw [List.getElem?_append_left (rooted.length ▸ old)]
      exact ⟨a, atGiven, became⟩
    · have last : (c.declarations ++ [d])[i]? = some (.block b) := block?_eq_some.mp atI
      rw [List.getElem?_append_right new, List.getElem?_singleton] at last
      split at last
      · rename_i same
        cases last
        refine ⟨.block b, ?_, ?_, ?_⟩
        · rw [List.getElem?_append_right (rooted.length ▸ new), ← rooted.length, same]
          rfl
        · exact List.forall₂_same.mpr fun e member => ⟨plain e member, Or.inl rfl⟩
        · intro isNew
          cases b with
          | set s => trivial
          | group g => exact fun validated => absurd isNew.1 validated
          | layout l => trivial
      · cases last

theorem add (rooted : Rooted constants given c) (i : Nat) :
    Rooted constants given (c.add i).2 := by
  rcases c.add_eq_self_or i with same | ⟨bound, run⟩
  · rwa [same]
  · have registered := rooted.registered.add bound run
    have inside := inside_add rooted.inside bound run
    rcases add_cases bound run with ⟨_, added⟩ | ⟨n, _, _, added⟩
    · rw [added] at registered inside ⊢
      exact ⟨rooted.plain, rooted.constants, registered, inside, rooted.length, rooted.blocks⟩
    · rw [added] at registered inside ⊢
      refine ⟨rooted.plain, rooted.constants, registered, inside, rooted.length, ?_⟩
      intro j b atJ
      obtain ⟨d, atGiven, became, complete⟩ := rooted.blocks j b atJ
      refine ⟨d, atGiven, became.imp ?_, complete⟩
      refine fun e v => Scope.Became.mono rfl fun name known => ?_
      simp only [scope, Ledger.find?, List.find?_append, Option.isSome_or] at known ⊢
      rw [known, Bool.true_or]

theorem validateEach (rooted : Rooted constants given c) (is : List Nat) :
    Rooted constants given (c.validateEach is).2 := by
  induction is generalizing c with
  | nil => exact rooted
  | cons i rest ih =>
    have here := rooted.refines (c.validateOne_refines i)
    unfold Compilation.validateEach
    split
    · rename_i run
      rwa [run] at here
    · rename_i run
      rw [run] at here
      exact ih here

theorem actionsAt (rooted : Rooted constants given c) (schedule : List Nat) :
    Rooted constants given (c.actionsAt schedule).2 := by
  induction schedule generalizing c with
  | nil => exact rooted
  | cons place rest ih =>
    cases atPlace : c.script[place]? with
    | none =>
      simp only [Compilation.actionsAt, atPlace]
      exact ih rooted
    | some i =>
      simp only [Compilation.actionsAt, atPlace]
      exact ih (rooted.refines (c.actions_refines i))

theorem log (rooted : Rooted constants given c) (log : Log) :
    Rooted constants given { c with log } :=
  rooted.refines (.of_eq rfl rfl rfl rfl)

theorem generateBy (rooted : Rooted constants given c) (schedule : List Nat) :
    Rooted constants given (c.generateBy schedule).2 := by
  have prepared := (rooted.log (c.log.beginPhase "Preparing")).refines
    (.of_progressed (prepareEach_progressed _ c.script))
  cases run : prepareEach { c with log := c.log.beginPhase "Preparing" } c.script with
  | mk result mid =>
    rw [run] at prepared
    cases result with
    | error failure =>
      rw [generateBy_unprepared run]
      exact prepared.log _
    | ok =>
      rw [generateBy_prepared run]
      exact ((prepared.log _).actionsAt schedule).log _

end Rooted

/-- The declarations that operations make, in the order of their numbers. -/
def made (operations : List Operation) : List Declaration :=
  operations.filterMap fun
    | .make d => some d
    | _ => none

theorem made_append (first second : List Operation) :
    made (first ++ second) = made first ++ made second :=
  List.filterMap_append

namespace Rooted

theorem perform (rooted : Rooted constants given c) {operation : Operation}
    (plain : ∀ d ∈ made [operation], ∀ e ∈ d.expressions, e.isPlain = true) :
    Rooted constants (given ++ made [operation]) (c.perform operation) := by
  have nothing {after : Compilation} (kept : Rooted constants given after) :
      Rooted constants (given ++ []) after := by
    rwa [List.append_nil]
  cases operation with
  | make d => exact rooted.make (plain d List.mem_cons_self)
  | add i => exact nothing (rooted.add i)
  | register i => exact nothing (rooted.refines (c.register_refines i))
  | validateOne i => exact nothing (rooted.refines (c.validateOne_refines i))
  | validate => exact nothing (rooted.validateEach c.script)
  | link => exact nothing (rooted.refines c.link_refines)
  | use id f => exact nothing (rooted.refines (c.use_refines id f))
  | propagate => exact nothing (rooted.refines c.propagate_refines)
  | prepare i => exact nothing (rooted.refines (.of_progressed (c.prepare_progressed i)))
  | actions i => exact nothing (rooted.refines (c.actions_refines i))
  | generate schedule => exact nothing (rooted.generateBy schedule)
  | equip backend => exact nothing (rooted.refines (.of_eq rfl rfl rfl rfl))

theorem performAll (rooted : Rooted constants given c) {operations : List Operation}
    (plain : ∀ d ∈ made operations, ∀ e ∈ d.expressions, e.isPlain = true) :
    Rooted constants (given ++ made operations) (c.performAll operations) := by
  induction operations generalizing c given with
  | nil => rwa [made, List.filterMap_nil, List.append_nil]
  | cons operation rest ih =>
    rw [← List.singleton_append, made_append] at plain ⊢
    obtain ⟨here, later⟩ := List.forall_mem_append.mp plain
    rw [← List.append_assoc]
    exact ih (rooted.perform here) later

theorem new (plain : ∀ entry ∈ constants, entry.2.isPlain = true) (profile : Profile)
    (screen : Screen) (backend : Backend) :
    Rooted constants [] (new profile screen constants backend) where
  plain := plain
  constants := rfl
  registered := (Draft.new profile screen constants backend).registered
  inside := (Draft.new profile screen constants backend).inside
  length := rfl
  blocks := by simp [Compilation.new, block?]

end Rooted

theorem linkEach_fails {source : Node} {references : List Reference} {failure : Failure}
    (failed : (c.linkEach source references).1 = .error failure) :
    failure = .frozen ∨ ∃ r ∈ references, c.Rejects r failure := by
  induction references generalizing c with
  | nil => cases failed
  | cons r rest ih =>
    rw [linkEach] at failed
    cases found : c.ledger.find? r.target.name with
    | none =>
      simp only [resolve, found, Except.error.injEq] at failed
      exact Or.inr ⟨r, List.mem_cons_self, Or.inl ⟨found, failed.symm⟩⟩
    | some n =>
      cases admitted : isReferenceable n with
      | false =>
        simp only [resolve, found, admitted, Bool.false_eq_true, if_false,
          Except.error.injEq] at failed
        exact Or.inr ⟨r, List.mem_cons_self, Or.inr ⟨n, found, admitted, failed.symm⟩⟩
      | true =>
        simp only [resolve, found, admitted, if_true] at failed
        cases linked : c.ledger.link source n with
        | error other =>
          rw [linked] at failed
          cases failed
          unfold Ledger.link at linked
          split at linked
          · cases linked
            exact Or.inl rfl
          · cases linked
        | ok ledger =>
          rw [linked] at failed
          obtain ⟨_, rfl⟩ := Ledger.link_eq_ok.mp linked
          -- An edge more, and the same names.
          rcases ih (c := c.draw [(source, n)]) failed with frozen | ⟨s, later, rejects⟩
          · exact Or.inl frozen
          · exact Or.inr ⟨s, List.mem_cons_of_mem _ later, rejects⟩

theorem linkAll_fails {is : List Nat} {failure : Failure}
    (failed : (c.linkAll is).1 = .error failure) :
    failure = .frozen ∨ ∃ i ∈ is, ∃ r ∈ c.referencesOf i, c.Rejects r failure := by
  induction is generalizing c with
  | nil => cases failed
  | cons i rest ih =>
    have later {d : Compilation} (failed : (d.linkAll rest).1 = .error failure) :
        failure = .frozen ∨ ∃ i' ∈ i :: rest, ∃ r ∈ d.referencesOf i', d.Rejects r failure := by
      rcases ih failed with frozen | ⟨j, member, rejected⟩
      · exact Or.inl frozen
      · exact Or.inr ⟨j, List.mem_cons_of_mem _ member, rejected⟩
    rw [linkAll] at failed
    cases atI : c.block? i with
    | none =>
      simp only [atI] at failed
      exact later failed
    | some b =>
      simp only [atI] at failed
      cases run : c.linkEach (b.node i) b.references with
      | mk result mid =>
        rw [run] at failed
        cases result with
        | error other =>
          cases failed
          have here := linkEach_fails (congrArg Prod.fst run)
          rw [← referencesOf_of_block? atI] at here
          exact here.imp_right fun rejected => ⟨i, List.mem_cons_self, rejected⟩
        | ok =>
          have drawn := linkEach_ok run
          subst drawn
          exact later (d := c.draw (c.edgesTo (b.node i) b.references)) failed

/-- Where all references are known, linking can still fail, but not for a name. -/
theorem link_kind {failure : Failure}
    (known : ∀ i, ∀ r ∈ c.referencesOf i, ∃ n, c.resolve r = .ok n)
    (failed : c.link.1 = .error failure) : failure.kind? ≠ some .unknownReference := by
  unfold link at failed
  split at failed
  · rename_i run
    cases failed
    rcases linkAll_fails (congrArg Prod.fst run) with rfl | ⟨i, _, r, member, rejects⟩
    · decide
    · obtain ⟨n, resolved⟩ := known i r member
      rcases rejects with ⟨missing, _⟩ | ⟨_, _, _, rfl⟩
      · simp only [resolve, missing] at resolved
        cases resolved
      · simp [Cause.kind]
  · dsimp only [Ledger.checkCycles] at failed
    split at failed
    · cases failed
      simp [Cause.kind]
    · cases failed

/-- The reference was written as an identifier in a declaration, and what it names belongs to the
script. -/
structure Anchored (constants : List (String × Expr)) (given : Declaration) (c : Compilation)
    (r : Reference) : Prop where
  written : ∃ e ∈ given.expressions, Leads constants e r.target
  resolved : ∃ j n, c.Names j r.target.name ∧ c.node? j = some n ∧ c.resolve r = .ok n

/-- No reference is unknown. All of them were given as identifiers, and a group that is validated
has lost none of its own. -/
structure Traceable (constants : List (String × Expr)) (given : List Declaration)
    (c : Compilation) : Prop where
  known : ∀ failure, c.link.1 = .error failure → failure.kind? ≠ some .unknownReference
  anchored : ∀ i, ∀ r ∈ c.referencesOf i, ∃ d, given[i]? = some d ∧ Anchored constants d c r
  complete : ∀ i d g, given[i]? = some d → d.IsNew → c.block? i = some (.group g) →
    g.lifecycle.stage ≠ .unvalidated →
      List.Forall₂ (fun e r => Leads constants e r.target) d.expressions g.references

namespace Rooted

theorem anchored (rooted : Rooted constants given c) {r : Reference}
    (member : r ∈ c.referencesOf i) : ∃ d, given[i]? = some d ∧ Anchored constants d c r := by
  cases atI : c.block? i with
  | none =>
    rw [referencesOf_of_none atI] at member
    cases member
  | some b =>
    rw [referencesOf_of_block? atI, Block.references_eq] at member
    obtain ⟨v, inside, isRef⟩ := List.mem_filterMap.mp member
    obtain ⟨d, atGiven, became, _⟩ := rooted.blocks i b atI
    obtain ⟨e, written, origin⟩ := exists_of_forall₂ became inside
    obtain ⟨leads, known⟩ := origin.leads isRef
    obtain ⟨n, found⟩ := Option.isSome_iff_exists.mp known
    obtain ⟨j, named, atJ⟩ := rooted.registered.find?_eq_some.mp found
    refine ⟨d, atGiven, ⟨e, written, rooted.constants ▸ leads⟩, j, n, named, atJ, ?_⟩
    simp only [resolve, found]

theorem traceable (rooted : Rooted constants given c) : Traceable constants given c where
  known := by
    intro failure failed
    refine link_kind (fun i r member => ?_) failed
    obtain ⟨_, _, anchored⟩ := rooted.anchored member
    obtain ⟨_, n, _, _, resolved⟩ := anchored.resolved
    exact ⟨n, resolved⟩
  anchored i r member := rooted.anchored member
  complete := by
    intro i d g atGiven isNew atI validated
    obtain ⟨d', same, became, complete⟩ := rooted.blocks i _ atI
    cases same.symm.trans atGiven
    have leads := Scope.Became.leads_all became (complete isNew validated)
    rw [← Block.references_eq] at leads
    exact rooted.constants ▸ leads

end Rooted

/-- Whatever is done and in whatever order, blocks that are named by identifiers are found. -/
theorem performAll_traceable (profile : Profile) (screen : Screen)
    (constants : List (String × Expr)) (backend : Backend) (operations : List Operation)
    (values : ∀ entry ∈ constants, entry.2.isPlain = true)
    (written : ∀ d ∈ made operations, ∀ e ∈ d.expressions, e.isPlain = true) :
    Traceable constants (made operations)
      ((new profile screen constants backend).performAll operations) := by
  have rooted := (Rooted.new values profile screen backend).performAll written
  rw [List.nil_append] at rooted
  exact rooted.traceable

/-- The house of the street is the value of a constant. -/
def streetConstants : List (String × Expr) :=
  [("home", .ident ⟨"own", none⟩), ("own", .ident ⟨"house", none⟩), ("height", .number 3 none)]

def streetOperations : List Operation :=
  let walls : SpriteSet := ⟨⟨"walls", none⟩, none, [.real [] [] none], none, {}, -1, {}⟩
  let house : SpriteGroup :=
    ⟨⟨"house", none⟩, [⟨⟨"default", none⟩, [.ident ⟨"walls", none⟩], none⟩], none, {}⟩
  let street : SpriteGroup :=
    ⟨⟨"street", none⟩, [⟨⟨"near", none⟩, [.ident ⟨"home", none⟩, .ident ⟨"walls", none⟩], none⟩],
      none, {}⟩
  let yard : SpriteLayout :=
    ⟨⟨"yard", none⟩, [], [⟨⟨"building", none⟩,
      [⟨⟨"sprite", none⟩, .ident ⟨"own", none⟩⟩, ⟨⟨"z", none⟩, .ident ⟨"height", none⟩⟩,
        ⟨⟨"later", none⟩, .ident ⟨"garden", none⟩⟩], none⟩], none, {}⟩
  let garden : SpriteSet := ⟨⟨"garden", none⟩, none, [.real [] [] none], none, {}, -1, {}⟩
  [.make (.block (.set walls)), .make (.block (.group house)), .make (.block (.group street)),
    .make (.block (.layout yard)), .add 0, .add 1, .add 2, .add 3, .validate,
    .make (.block (.set garden)), .add 4]

/-- The garden is added after validation. What the layout names by it stays an identifier. -/
theorem performAll_traceable_street :
    (∀ entry ∈ streetConstants, entry.2.isPlain = true) ∧
      (∀ d ∈ made streetOperations, ∀ e ∈ d.expressions, e.isPlain = true) ∧
      ((new {} { width := 80 } streetConstants echo).performAll streetOperations).link.1 = .ok () ∧
      ((new {} { width := 80 } streetConstants echo).performAll streetOperations).collected.map
        (·.target.name) = ["walls", "house", "walls", "house"] ∧
      Traceable streetConstants (made streetOperations)
        ((new {} { width := 80 } streetConstants echo).performAll streetOperations) := by
  have values : ∀ entry ∈ streetConstants, entry.2.isPlain = true := by decide +kernel
  have written : ∀ d ∈ made streetOperations, ∀ e ∈ d.expressions, e.isPlain = true := by
    decide +kernel
  exact ⟨values, written, by decide +kernel, by decide +kernel,
    performAll_traceable {} { width := 80 } streetConstants echo streetOperations values written⟩

end Grf.Compilation
