import Grf.Proofs.Evaluation
import Mathlib.Logic.Relation

namespace Grf

namespace Expr

mutual

/-- The identifiers that stand anywhere in an expression. The name of a reference is none: it is not
looked up when the reference is reduced. -/
def identifiers : Expr → List Identifier
  | ident id => [id]
  | text _ _ => []
  | number _ _ => []
  | ref _ args _ => identifiersOf args
  | binary _ left right _ => left.identifiers ++ right.identifiers

def identifiersOf : List Expr → List Identifier
  | [] => []
  | e :: rest => e.identifiers ++ identifiersOf rest

end

variable {resolve : Identifier → Except Failure Expr} {failure : Failure} {id : Identifier}

theorem mem_identifiersOf {args : List Expr} :
    id ∈ identifiersOf args ↔ ∃ e ∈ args, id ∈ e.identifiers := by
  induction args with
  | nil => simp [identifiersOf]
  | cons e rest ih => simp [identifiersOf, ih]

theorem reduceAllWith_ok {args results : List Expr} (run : reduceAllWith resolve args = .ok results) :
    ∀ e ∈ args, ∃ v, e.reduceWith resolve = .ok v := by
  obtain ⟨sameLength, reduced⟩ := reduceAllWith_eq_ok.mp run
  intro e member
  obtain ⟨i, inside, rfl⟩ := List.getElem_of_mem member
  have insideResults : i < results.length := by omega
  have paired : (args[i], results[i]) ∈ args.zip results :=
    List.mem_iff_getElem.mpr ⟨i, by simp [inside, insideResults], List.getElem_zip⟩
  exact ⟨results[i], reduced _ paired⟩

theorem reduceAllWith_error {args : List Expr} (run : reduceAllWith resolve args = .error failure) :
    ∃ e ∈ args, e.reduceWith resolve = .error failure := by
  induction args with
  | nil => cases run
  | cons e rest ih =>
    rw [reduceAllWith] at run
    split at run
    · rename_i failed
      cases run
      exact ⟨e, List.mem_cons_self, failed⟩
    · split at run
      · rename_i failed
        cases run
        obtain ⟨other, member, otherFailed⟩ := ih failed
        exact ⟨other, List.mem_cons_of_mem e member, otherFailed⟩
      · cases run

/-- An expression is reduced as a whole, so all its identifiers have values. -/
theorem identifiers_of_reduceWith (e : Expr) :
    ∀ v, e.reduceWith resolve = .ok v → ∀ id ∈ e.identifiers, ∃ w, resolve id = .ok w := by
  induction e using inductionOn with
  | ident id =>
    intro v reduced other member
    cases List.mem_singleton.mp member
    exact ⟨v, reduced⟩
  | text value p => simp [identifiers]
  | number value p => simp [identifiers]
  | ref target args p ih =>
    intro v reduced id member
    rw [reduceWith] at reduced
    split at reduced
    · rename_i results run
      obtain ⟨arg, inArgs, inArg⟩ := mem_identifiersOf.mp member
      obtain ⟨w, reducedArg⟩ := reduceAllWith_ok run arg inArgs
      exact ih arg inArgs w reducedArg id inArg
    · cases reduced
  | binary op left right p ihLeft ihRight =>
    intro v reduced id member
    obtain ⟨l, r, reducedLeft, reducedRight, _⟩ := reduceWith_binary.mp reduced
    rcases List.mem_append.mp member with inLeft | inRight
    · exact ihLeft l reducedLeft id inLeft
    · exact ihRight r reducedRight id inRight

theorem fold_error {op : Operator} {p : Option Position} {left right : Expr}
    (failed : fold op p left right = .error failure) : failure.kind? ≠ some .selfInclusion := by
  unfold fold at failed
  split at failed
  · split at failed
    · cases failed
    · cases failed
      simp [Failure.kind?, Failure.scriptError?]
  · cases failed
    simp [Cause.kind]

/-- Only an identifier can be found to be led back to itself. -/
theorem reduceWith_selfInclusion (loop : failure.kind? = some .selfInclusion) (e : Expr) :
    e.reduceWith resolve = .error failure → ∃ id ∈ e.identifiers, resolve id = .error failure := by
  induction e using inductionOn with
  | ident id =>
    intro failed
    exact ⟨id, List.mem_singleton_self id, failed⟩
  | text value p =>
    intro failed
    cases failed
  | number value p =>
    intro failed
    cases failed
  | ref target args p ih =>
    intro failed
    rw [reduceWith] at failed
    split at failed
    · cases failed
    · rename_i run
      cases failed
      obtain ⟨arg, inArgs, failedArg⟩ := reduceAllWith_error run
      obtain ⟨id, inArg, unresolved⟩ := ih arg inArgs failedArg
      exact ⟨id, mem_identifiersOf.mpr ⟨arg, inArgs, inArg⟩, unresolved⟩
  | binary op left right p ihLeft ihRight =>
    intro failed
    rw [reduceWith] at failed
    split at failed
    · rename_i failedLeft
      cases failed
      obtain ⟨id, member, unresolved⟩ := ihLeft failedLeft
      exact ⟨id, List.mem_append_left _ member, unresolved⟩
    · split at failed
      · rename_i failedRight
        cases failed
        obtain ⟨id, member, unresolved⟩ := ihRight failedRight
        exact ⟨id, List.mem_append_right _ member, unresolved⟩
      · exact absurd loop (fold_error failed)

end Expr

namespace Scope

open Relation (ReflTransGen TransGen)

variable {scope : Scope} {depth : Nat} {expanding : List String} {id : Identifier} {name : String}
  {v : Expr} {failure : Failure}

/-- The value of the constant `a` mentions the constant `b`. -/
def Needs (scope : Scope) (a b : String) : Prop :=
  (scope.constants.lookup b).isSome ∧
    ∃ value, scope.constants.lookup a = some value ∧ ∃ id ∈ value.identifiers, id.name = b

/-- The expression mentions the constant, or one that leads to it. -/
def Reaches (scope : Scope) (e : Expr) (name : String) : Prop :=
  ∃ id ∈ e.identifiers, (scope.constants.lookup id.name).isSome ∧
    ReflTransGen scope.Needs id.name name

/-- The constant needs its own value. -/
def OnCycle (scope : Scope) (name : String) : Prop :=
  TransGen scope.Needs name name

/-- Nothing that the constant needs lies on a cycle, nor does the constant itself. -/
def Grounded (scope : Scope) (name : String) : Prop :=
  ∀ other, ReflTransGen scope.Needs name other → ¬ scope.OnCycle other

theorem Grounded.of_needs (all : ∀ other, scope.Needs name other → scope.Grounded other) :
    scope.Grounded name := by
  intro last path cycle
  rcases ReflTransGen.cases_head path with same | ⟨next, needs, rest⟩
  · subst same
    obtain ⟨next, needs, back⟩ := TransGen.head'_iff.mp cycle
    exact all next needs name back cycle
  · exact all next needs last rest cycle

/-- The depth of the expansion goes down along the constants that are needed, so a constant with a
value is on no cycle. -/
theorem grounded_of_resolve (found : scope.resolve depth expanding id = .ok v) :
    scope.Grounded id.name := by
  induction depth using Nat.strongRecOn generalizing expanding id v with
  | ind depth ih =>
    refine .of_needs ?_
    rintro other ⟨_, value, constant, next, member, rfl⟩
    rcases resolve_ok found with ⟨none, _⟩ | ⟨same, rest, sameConstant, rfl, reduced⟩
    · cases none.symm.trans constant
    · cases sameConstant.symm.trans constant
      obtain ⟨w, resolved⟩ := Expr.identifiers_of_reduceWith value v reduced next member
      exact ih rest (Nat.lt_succ_self rest) resolved

theorem constant_of_selfInclusion (loop : failure.kind? = some .selfInclusion)
    (failed : scope.resolve depth expanding id = .error failure) :
    ∃ value, scope.constants.lookup id.name = some value := by
  cases constant : scope.constants.lookup id.name with
  | some value => exact ⟨value, rfl⟩
  | none =>
    rw [resolve_none constant] at failed
    split at failed
    · cases failed
    · cases failed
      cases loop

/-- The constants that are being expanded all need the one that is met. If it is one of them, it is
on a cycle; otherwise the failure comes from its value, where it is needed itself. -/
theorem resolve_selfInclusion (loop : failure.kind? = some .selfInclusion)
    (chain : scope.Chain depth expanding)
    (needed : ∀ a ∈ expanding, TransGen scope.Needs a id.name)
    (failed : scope.resolve depth expanding id = .error failure) :
    ∃ name position, failure = .inScript (.constantLoop name) position ∧
      ReflTransGen scope.Needs id.name name ∧ scope.OnCycle name := by
  induction depth using Nat.strongRecOn generalizing expanding id with
  | ind depth ih =>
    obtain ⟨value, constant⟩ := constant_of_selfInclusion loop failed
    by_cases met : id.name ∈ expanding
    · rw [resolve_loop constant met] at failed
      cases failed
      exact ⟨id.name, id.position, rfl, .refl, needed id.name met⟩
    · obtain ⟨rest, rfl, longer⟩ := chain.expand constant met
      rw [resolve_expand constant met] at failed
      obtain ⟨next, member, unresolved⟩ := Expr.reduceWith_selfInclusion loop value failed
      obtain ⟨nextValue, nextConstant⟩ := constant_of_selfInclusion loop unresolved
      have step : scope.Needs id.name next.name :=
        ⟨by rw [nextConstant]; rfl, value, constant, next, member, rfl⟩
      have neededNext : ∀ a ∈ id.name :: expanding, TransGen scope.Needs a next.name :=
        List.forall_mem_cons.mpr ⟨.single step, fun a inside => .tail (needed a inside) step⟩
      obtain ⟨name, position, same, path, cycle⟩ :=
        ih rest (Nat.lt_succ_self rest) longer neededNext unresolved
      exact ⟨name, position, same, .head step path, cycle⟩

end Scope

/-- A constant that is said to refer to itself does so, and the expression leads to it. An expression
that leads to any such constant cannot be reduced, whatever else stands in it. -/
theorem Expr.reduce_selfInclusion (scope : Scope) (e : Expr) :
    (∀ failure, e.reduce scope = .error failure → failure.kind? = some .selfInclusion →
      ∃ name position, failure = .inScript (.constantLoop name) position ∧
        scope.Reaches e name ∧ scope.OnCycle name) ∧
    ((∃ name, scope.Reaches e name ∧ scope.OnCycle name) →
      ∃ failure, e.reduce scope = .error failure) := by
  constructor
  · intro failure failed loop
    obtain ⟨id, member, unresolved⟩ := reduceWith_selfInclusion loop e failed
    obtain ⟨value, constant⟩ := Scope.constant_of_selfInclusion loop unresolved
    obtain ⟨name, position, same, path, cycle⟩ :=
      Scope.resolve_selfInclusion loop (.start (Nat.le_refl _)) (by simp) unresolved
    exact ⟨name, position, same, ⟨id, member, by rw [constant]; rfl, path⟩, cycle⟩
  · rintro ⟨name, ⟨id, member, _, path⟩, cycle⟩
    cases reduced : e.reduce scope with
    | error failure => exact ⟨failure, rfl⟩
    | ok v =>
      obtain ⟨w, resolved⟩ := identifiers_of_reduceWith e v reduced id member
      exact absurd cycle (Scope.grounded_of_resolve resolved name path)

end Grf
