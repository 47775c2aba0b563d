import Grf.Proofs.Assembly
import Grf.Proofs.Usage
import Grf.Proofs.Validation

namespace Grf.Compilation

/-- A compilation that is ready for output: its script was assembled, validated and linked, the
direct uses were entered, and their features propagated, all without failure. -/
inductive Ready (profile : Profile) (screen : Screen) (constants : List (String × Expr))
    (backend : Backend) (added : List Nat) (uses : List (Identifier × Feature)) :
    Compilation → Prop
  | intro {assembled validated linked used c} :
      Assembled profile screen constants backend added assembled →
      assembled.validate = (.ok (), validated) → validated.link = (.ok (), linked) →
      Uses linked uses used → used.propagate = (.ok (), c) →
      Ready profile screen constants backend added uses c

/-- What output relies on. Nothing of it is prepared or requested yet. -/
structure Awaiting (profile : Profile) (backend : Backend) (added : List Nat)
    (uses : List (Identifier × Feature)) (c : Compilation) : Prop where
  registered : c.Registered
  script : c.script = added
  reached : ∀ i f, f ∈ c.features i ↔ c.ReachedWith uses i f
  propagated : c.ledger.isPropagated = true
  unprepared : c.ledger.prepared = []
  warnUnused : c.ledger.warnUnused = profile.warnUnused
  backend : c.backend = backend
  calls : c.calls = []
  validated : ∀ i ∈ c.script, ∀ b, c.block? i = some b → b.lifecycle.stage ≠ .unvalidated
  unrequested : ∀ i b, c.block? i = some b → b.lifecycle.outcome = none

theorem mem_features {c : Compilation} {i : Nat} {f : Feature} :
    f ∈ c.features i ↔ ∃ n, c.node? i = some n ∧ f ∈ (c.ledger.features n).toList := by
  unfold features
  cases c.node? i with
  | none => simp
  | some n => simp

theorem ReachedWith.exists_node {c : Compilation} {uses : List (Identifier × Feature)} {i : Nat}
    {f : Feature} (reached : c.ReachedWith uses i f) : ∃ n, c.node? i = some n := by
  obtain ⟨id, root, _, ⟨_, n, atRoot, _⟩, chain⟩ := reached
  rcases Relation.ReflTransGen.cases_tail chain with same | ⟨k, _, refers⟩
  · exact ⟨n, same ▸ atRoot⟩
  · exact refers.exists_node

/-- Propagation over the references of the script and the direct uses, both read by name. -/
theorem mem_features_of_uses {c : Compilation} {uses : List (Identifier × Feature)}
    {after : Ledger} {i : Nat} {f : Feature} (registered : c.Registered)
    (edges : c.ledger.references.edges = c.script.flatMap c.edgesOf)
    (entered : c.ledger.uses = uses.filterMap fun use =>
      (c.ledger.find? use.1.name).map fun n => (n, use.2))
    (run : c.ledger.propagate = .ok after) :
    f ∈ features { c with ledger := after } i ↔ c.ReachedWith uses i f := by
  have known (r : Node) : (r, f) ∈ c.ledger.uses ↔
      ∃ id root, (id, f) ∈ uses ∧ c.Names root id.name ∧ c.node? root = some r := by
    rw [entered, List.mem_filterMap]
    constructor
    · rintro ⟨⟨id, g⟩, member, found⟩
      obtain ⟨n, atName, same⟩ := Option.map_eq_some_iff.mp found
      cases same
      obtain ⟨root, named, atRoot⟩ := registered.find?_eq_some.mp atName
      exact ⟨id, root, member, named, atRoot⟩
    · rintro ⟨id, root, member, named, atRoot⟩
      refine ⟨(id, f), member, ?_⟩
      rw [registered.find?_eq_some.mpr ⟨root, named, atRoot⟩, Option.map_some]
  rw [mem_features]
  constructor
  · rintro ⟨n, atI, carried⟩
    obtain ⟨r, used, path⟩ := (Ledger.mem_features_of_propagate run).mp carried
    obtain ⟨id, root, member, named, atRoot⟩ := (known r).mp used
    obtain ⟨j, chain, atJ⟩ := (path_iff registered edges atRoot).mp path
    cases node?_injective atJ atI
    exact ⟨id, root, member, named, chain⟩
  · intro reached
    obtain ⟨n, atI⟩ := reached.exists_node
    obtain ⟨id, root, member, named, chain⟩ := reached
    have ⟨_, r, atRoot, _⟩ := named
    refine ⟨n, atI, (Ledger.mem_features_of_propagate run).mpr ⟨r, ?_, ?_⟩⟩
    · exact (known r).mpr ⟨id, root, member, named, atRoot⟩
    · exact (path_iff registered edges atRoot).mpr ⟨i, chain, atI⟩

theorem Ready.awaiting {profile : Profile} {screen : Screen} {constants : List (String × Expr)}
    {backend : Backend} {added : List Nat} {uses : List (Identifier × Feature)} {c : Compilation}
    (ready : Ready profile screen constants backend added uses c) :
    Awaiting profile backend added uses c := by
  obtain ⟨assembled, validate, link, entered, propagate⟩ := ready
  rename_i before validated linked used
  have fresh := assembled.fresh
  obtain ⟨revised, stages⟩ := validateEach_revised validate
  have untouched := revised.ledger.trans fresh.ledger
  have registered : validated.Registered :=
    fresh.registered.congr revised.script (by rw [revised.ledger]) revised.nodes
  have edges := entered.edges (link_edges link (by rw [untouched]))
  have noUses : linked.ledger.uses = [] := by
    rw [link_ok link]
    simp only [draw, untouched]
  have recordedUses := entered.uses noUses
  have recordedUsed := (link_recorded link).trans entered.recorded
  obtain ⟨recordedLast, propagated⟩ := propagate_recorded propagate
  have registeredUsed := recordedUsed.registered registered
  have reached (i : Nat) (f : Feature) : f ∈ c.features i ↔ c.ReachedWith uses i f := by
    obtain ⟨ledger, run, rfl⟩ := propagate_ok propagate
    exact mem_features_of_uses registeredUsed edges recordedUses run
  obtain ⟨_, _, _, rfl⟩ := recordedUsed.trans recordedLast
  exact
    { registered := recordedLast.registered registeredUsed
      script := revised.script.trans fresh.script
      reached := reached
      propagated := propagated
      unprepared := by simp only [untouched]
      warnUnused := by simp only [untouched]
      backend := revised.backend.trans fresh.backend
      calls := revised.calls.trans fresh.calls
      validated := fun i member => stages rfl i (revised.script ▸ member)
      unrequested := fun i b found => revised.outcome (fresh.unrequested i) found }

end Grf.Compilation
