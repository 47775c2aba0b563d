import Grf.Compilation.Validation
import Grf.Proofs.Names
import Grf.Proofs.Propagation

namespace Grf

/-- A declaration as it is made: not validated, and never asked for actions. -/
def Declaration.IsNew : Declaration → Prop
  | template _ contents => contents = none
  | block b => b.lifecycle.stage = .unvalidated ∧ b.lifecycle.outcome = none

instance (d : Declaration) : Decidable d.IsNew :=
  match d with
  | .template _ contents => inferInstanceAs (Decidable (contents = none))
  | .block b =>
    inferInstanceAs (Decidable (b.lifecycle.stage = .unvalidated ∧ b.lifecycle.outcome = none))

namespace Compilation

/-- A script under construction. Declarations are made, in any number, and some of them are added
one after the other without failure. -/
inductive Assembled (profile : Profile) (screen : Screen) (constants : List (String × Expr))
    (backend : Backend) : List Nat → Compilation → Prop
  | new : Assembled profile screen constants backend [] (.new profile screen constants backend)
  | make {added c d} : Assembled profile screen constants backend added c → d.IsNew →
      Assembled profile screen constants backend added (c.make d)
  | add {added c after i} : Assembled profile screen constants backend added c →
      i < c.declarations.length → c.add i = (.ok (), after) →
      Assembled profile screen constants backend (added ++ [i]) after

/-- A script of which nothing but the names was looked at. -/
structure Fresh (profile : Profile) (backend : Backend) (added : List Nat) (c : Compilation) :
    Prop where
  registered : c.Registered
  script : c.script = added
  inside : ∀ i ∈ c.script, i < c.declarations.length
  ledger : c.ledger =
    { warnUnused := profile.warnUnused, capacity := profile.maxIds, nodes := c.ledger.nodes }
  backend : c.backend = backend
  calls : c.calls = []
  unrequested : ∀ i b, c.block? i = some b → b.lifecycle.outcome = none

theorem add_cases {c after : Compilation} {i : Nat} (inside : i < c.declarations.length)
    (run : c.add i = (.ok (), after)) :
    (c.node? i = none ∧ after = { c with script := c.script ++ [i] }) ∨
      ∃ n, c.node? i = some n ∧ c.ledger.find? n.name.name = none ∧
        after = { c with
          ledger := { c.ledger with nodes := c.ledger.nodes ++ [n] }
          script := c.script ++ [i] } := by
  unfold add at run
  split at run
  · rename_i missing
    exact absurd inside (Nat.not_lt.mpr (List.getElem?_eq_none_iff.mp missing))
  · rename_i found
    cases run
    exact Or.inl ⟨by simp [node?, block?, found], rfl⟩
  · rename_i b found
    split at run
    · cases run
    · rename_i ledger defined
      cases run
      obtain ⟨_, free, rfl⟩ := Ledger.define_eq_ok.mp defined
      exact Or.inr ⟨_, node?_of_block? (block?_eq_some.mpr found), free, rfl⟩

/-- An addition that fails changes nothing. -/
theorem add_eq_self_or (c : Compilation) (i : Nat) :
    (c.add i).2 = c ∨ i < c.declarations.length ∧ c.add i = (.ok (), (c.add i).2) := by
  unfold add
  split
  · exact Or.inl rfl
  · rename_i found
    exact Or.inr ⟨(List.getElem?_eq_some_iff.mp found).1, rfl⟩
  · rename_i found
    split
    · exact Or.inl rfl
    · exact Or.inr ⟨(List.getElem?_eq_some_iff.mp found).1, rfl⟩

/-- Adds declarations one after the other, up to the first failure. -/
def addEach (c : Compilation) : List Nat → Except Failure Unit × Compilation
  | [] => (.ok (), c)
  | i :: rest =>
    match c.add i with
    | (.error failure, c) => (.error failure, c)
    | (.ok _, c) => c.addEach rest

/-- The compilation with more declarations in its script, and their blocks in the ledger. -/
def enroll (c : Compilation) (is : List Nat) : Compilation :=
  { c with
    ledger := { c.ledger with nodes := c.ledger.nodes ++ is.filterMap c.node? }
    script := c.script ++ is }

theorem enroll_enroll (c : Compilation) (is js : List Nat) :
    (c.enroll is).enroll js = c.enroll (is ++ js) := by
  have same : (c.enroll is).node? = c.node? := rfl
  rw [enroll, same]
  simp only [enroll, List.filterMap_append, List.append_assoc]

theorem add_ok {c : Compilation} {i : Nat} (inside : i < c.declarations.length)
    (growing : c.ledger.carried = none)
    (free : ∀ n, c.node? i = some n → c.ledger.find? n.name.name = none) :
    c.add i = (.ok (), c.enroll [i]) := by
  unfold add enroll
  have atI := List.getElem?_eq_getElem inside
  cases d : c.declarations[i] with
  | template t contents =>
    rw [d] at atI
    have noNode : c.node? i = none := by simp [node?, block?, atI]
    simp only [atI, List.filterMap_cons_none noNode, List.filterMap_nil, List.append_nil]
  | block e =>
    rw [d] at atI
    have node := node?_of_block? (block?_eq_some.mpr atI)
    have defined := Ledger.define_eq_ok.mpr ⟨growing, free _ node, rfl⟩
    simp only [atI, defined, List.filterMap_cons_some node, List.filterMap_nil]

theorem addEach_ok {c : Compilation} {is : List Nat}
    (inside : ∀ i ∈ is, i < c.declarations.length) (growing : c.ledger.carried = none)
    (names : ((c.enroll is).ledger.nodes.map fun n => n.name.name).Nodup) :
    c.addEach is = (.ok (), c.enroll is) := by
  induction is generalizing c with
  | nil => simp only [addEach, enroll, List.filterMap_nil, List.append_nil]
  | cons i rest ih =>
    obtain ⟨here, later⟩ := List.forall_mem_cons.mp inside
    have free : ∀ n, c.node? i = some n → c.ledger.find? n.name.name = none := by
      intro n found
      rw [enroll, List.filterMap_cons_some found, List.map_append, List.nodup_append] at names
      refine List.find?_eq_none.mpr fun m member same => ?_
      refine names.2.2 m.name.name (List.mem_map.mpr ⟨m, member, rfl⟩) n.name.name ?_ ?_
      · simp
      · simpa using same
    rw [← List.singleton_append, ← enroll_enroll] at names ⊢
    rw [List.singleton_append, addEach, add_ok here growing free]
    exact ih later growing names

theorem block?_make {c : Compilation} {i : Nat} (d : Declaration)
    (inside : i < c.declarations.length) : (c.make d).block? i = c.block? i := by
  simp only [block?, make, List.getElem?_append_left inside]

/-- What is made later does not belong to the script. -/
theorem Registered.make {c : Compilation} (registered : c.Registered)
    (inside : ∀ i ∈ c.script, i < c.declarations.length) (d : Declaration) :
    (c.make d).Registered := by
  refine ⟨?_, registered.names⟩
  refine registered.nodes.trans (List.filterMap_congr ?_)
  intro i member
  simp only [node?, block?_make d (inside i member)]

/-- What is added has a name that was free. -/
theorem Registered.add {c after : Compilation} {i : Nat} (registered : c.Registered)
    (bound : i < c.declarations.length) (run : c.add i = (.ok (), after)) : after.Registered := by
  rcases add_cases bound run with ⟨noNode, rfl⟩ | ⟨n, atI, free, rfl⟩
  · refine ⟨?_, registered.names⟩
    show c.ledger.nodes = (c.script ++ [i]).filterMap c.node?
    rw [List.filterMap_append, List.filterMap_cons_none noNode, List.filterMap_nil, List.append_nil]
    exact registered.nodes
  · refine ⟨?_, ?_⟩
    · show c.ledger.nodes ++ [n] = (c.script ++ [i]).filterMap c.node?
      rw [List.filterMap_append, List.filterMap_cons_some atI, List.filterMap_nil]
      exact congrArg (· ++ [n]) registered.nodes
    · rw [List.map_append, List.nodup_append]
      refine ⟨registered.names, by simp, ?_⟩
      intro name member other same
      obtain ⟨m, known, rfl⟩ := List.mem_map.mp member
      rw [List.map_singleton, List.mem_singleton] at same
      subst same
      have different := List.find?_eq_none.mp free m known
      simpa using different

theorem inside_make {c : Compilation} (inside : ∀ i ∈ c.script, i < c.declarations.length)
    (d : Declaration) : ∀ i ∈ (c.make d).script, i < (c.make d).declarations.length := by
  intro i member
  have bound := inside i member
  simp only [make, List.length_append]
  omega

/-- All that belongs to the script was made before. -/
theorem inside_add {c after : Compilation} {i : Nat}
    (inside : ∀ j ∈ c.script, j < c.declarations.length) (bound : i < c.declarations.length)
    (run : c.add i = (.ok (), after)) : ∀ j ∈ after.script, j < after.declarations.length := by
  have grown : ∀ j ∈ c.script ++ [i], j < c.declarations.length := by
    intro j member
    rcases List.mem_append.mp member with old | new
    · exact inside j old
    · rwa [List.mem_singleton.mp new]
  rcases add_cases bound run with ⟨_, rfl⟩ | ⟨_, _, _, rfl⟩ <;> exact grown

namespace Fresh

variable {profile : Profile} {backend : Backend} {added : List Nat} {c : Compilation}

theorem make (fresh : Fresh profile backend added c) {d : Declaration} (isNew : d.IsNew) :
    Fresh profile backend added (c.make d) where
  registered := fresh.registered.make fresh.inside d
  script := fresh.script
  inside := inside_make fresh.inside d
  ledger := fresh.ledger
  backend := fresh.backend
  calls := fresh.calls
  unrequested := by
    intro i b found
    by_cases inside : i < c.declarations.length
    · exact fresh.unrequested i b (by rwa [block?_make d inside] at found)
    · have last := block?_eq_some.mp found
      simp only [Compilation.make, List.getElem?_append_right (Nat.le_of_not_lt inside)] at last
      have same := List.mem_singleton.mp (List.mem_of_getElem? last)
      subst same
      exact isNew.2

theorem add (fresh : Fresh profile backend added c) {after : Compilation} {i : Nat}
    (bound : i < c.declarations.length) (run : c.add i = (.ok (), after)) :
    Fresh profile backend (added ++ [i]) after := by
  have registered := fresh.registered.add bound run
  have inside := inside_add fresh.inside bound run
  have script : c.script ++ [i] = added ++ [i] := congrArg (· ++ [i]) fresh.script
  rcases add_cases bound run with ⟨_, rfl⟩ | ⟨n, _, _, rfl⟩
  · exact { fresh with registered, script, inside }
  · exact { fresh with registered, script, inside, ledger := by rw [fresh.ledger] }

end Fresh

theorem Assembled.fresh {profile : Profile} {screen : Screen} {constants : List (String × Expr)}
    {backend : Backend} {added : List Nat} {c : Compilation}
    (assembled : Assembled profile screen constants backend added c) :
    Fresh profile backend added c := by
  induction assembled with
  | new =>
    exact
      { registered := ⟨rfl, by simp [Compilation.new]⟩
        script := rfl
        inside := by simp [Compilation.new]
        ledger := rfl
        backend := rfl
        calls := rfl
        unrequested := by simp [Compilation.new, block?] }
  | make _ isNew ih => exact ih.make isNew
  | add _ bound run ih => exact ih.add bound run

end Compilation

end Grf
