import Grf.Expr.Reduce
import Mathlib.Data.List.Forall2
import Mathlib.Data.List.Perm.Subperm
import Mathlib.Order.Minimal

namespace Grf

/-- The exact arithmetic of the known operators. -/
def Operator.exact? : Operator → Option (Int → Int → Int)
  | add => some (· + ·)
  | sub => some (· - ·)
  | mul => some (· * ·)
  | unknown _ => none

/-- Evaluation with no regard to the constants that are being expanded. A constant that needs its
own value has none, since no finite derivation gives it one. -/
inductive Scope.Evaluates (scope : Scope) : Expr → Expr → Prop
  | constant {id value result} : scope.constants.lookup id.name = some value →
      Evaluates scope value result → Evaluates scope (.ident id) result
  | block {id} : scope.constants.lookup id.name = none → scope.isBlock id.name = true →
      Evaluates scope (.ident id) (.ref id [] id.position)
  | text {value p} : Evaluates scope (.text value p) (.text value p)
  | number {value p} : Evaluates scope (.number value p) (.number value p)
  | ref {target args results p} : args.length = results.length →
      (∀ pair ∈ args.zip results, Evaluates scope pair.1 pair.2) →
      Evaluates scope (.ref target args p) (.ref target results p)
  | binary {op exact left right a b p q r} : op.exact? = some exact →
      Evaluates scope left (.number a q) → Evaluates scope right (.number b r) →
      Evaluates scope (.binary op left right p)
        (.number (.ofInt (exact a.toInt b.toInt)) p)

namespace Expr

/-- Induction on expressions, with all arguments of a reference at once. -/
@[elab_as_elim]
theorem inductionOn {motive : Expr → Prop} (e : Expr) (ident : ∀ id, motive (.ident id))
    (text : ∀ value p, motive (.text value p)) (number : ∀ value p, motive (.number value p))
    (ref : ∀ target args p, (∀ e ∈ args, motive e) → motive (.ref target args p))
    (binary : ∀ op left right p, motive left → motive right → motive (.binary op left right p)) :
    motive e := by
  refine @Expr.rec motive (fun args => ∀ e ∈ args, motive e) ident text number ref binary ?_ ?_ e
  · simp
  · intro e rest here later
    exact List.forall_mem_cons.mpr ⟨here, later⟩

theorem compute?_eq_some {op : Operator} {a b value : Int64} :
    compute? op a b = some value ↔
      ∃ exact, op.exact? = some exact ∧ value = .ofInt (exact a.toInt b.toInt) := by
  cases op <;>
    simp [compute?, Operator.exact?, Int64.ofInt_add, Int64.ofInt_sub, Int64.ofInt_mul, eq_comm]

theorem fold_eq_ok {op : Operator} {p : Option Position} {left right v : Expr} :
    fold op p left right = .ok v ↔
      ∃ exact a b q r, op.exact? = some exact ∧ left = .number a q ∧ right = .number b r ∧
        v = .number (.ofInt (exact a.toInt b.toInt)) p := by
  constructor
  · intro folded
    unfold fold at folded
    split at folded
    · rename_i a q b r
      split at folded
      · rename_i value computed
        cases folded
        obtain ⟨exact, known, rfl⟩ := compute?_eq_some.mp computed
        exact ⟨exact, a, b, q, r, known, rfl, rfl, rfl⟩
      · cases folded
    · cases folded
  · rintro ⟨exact, a, b, q, r, known, rfl, rfl, rfl⟩
    have computed : compute? op a b = some (.ofInt (exact a.toInt b.toInt)) :=
      compute?_eq_some.mpr ⟨exact, known, rfl⟩
    simp only [fold, computed]

variable {resolve other : Identifier → Except Failure Expr} {v : Expr} {p : Option Position}

theorem reduceWith_binary {op : Operator} {left right : Expr} :
    (binary op left right p).reduceWith resolve = .ok v ↔
      ∃ l r, left.reduceWith resolve = .ok l ∧ right.reduceWith resolve = .ok r ∧
        fold op p l r = .ok v := by
  rw [reduceWith]
  cases left.reduceWith resolve <;> cases right.reduceWith resolve <;> simp

theorem reduceAllWith_eq_ok {args results : List Expr} :
    reduceAllWith resolve args = .ok results ↔
      args.length = results.length ∧
        ∀ pair ∈ args.zip results, pair.1.reduceWith resolve = .ok pair.2 := by
  induction args generalizing results with
  | nil => cases results <;> simp [reduceAllWith]
  | cons e rest ih =>
    rw [reduceAllWith]
    cases results with
    | nil =>
      cases e.reduceWith resolve <;> cases reduceAllWith resolve rest <;> simp
    | cons v others =>
      rw [List.length_cons, List.length_cons, Nat.add_right_cancel_iff, List.zip_cons_cons,
        List.forall_mem_cons, and_left_comm, ← ih]
      cases e.reduceWith resolve <;> cases reduceAllWith resolve rest <;> simp

theorem reduceWith_ref {target : Identifier} {args : List Expr} :
    (ref target args p).reduceWith resolve = .ok v ↔
      ∃ results, args.length = results.length ∧
        (∀ pair ∈ args.zip results, pair.1.reduceWith resolve = .ok pair.2) ∧
        v = .ref target results p := by
  simp only [← and_assoc, ← reduceAllWith_eq_ok]
  rw [reduceWith]
  cases reduceAllWith resolve args <;> simp [eq_comm]

/-- Where identifiers have more values, so have expressions, and the old values stay. -/
theorem reduceWith_mono (more : ∀ id v, resolve id = .ok v → other id = .ok v) (e : Expr) :
    ∀ v, e.reduceWith resolve = .ok v → e.reduceWith other = .ok v := by
  induction e using inductionOn with
  | ident id =>
    intro v found
    exact more id v found
  | text value p => exact fun _ found => found
  | number value p => exact fun _ found => found
  | ref target args p ih =>
    intro v found
    obtain ⟨results, sameLength, reduced, rfl⟩ := reduceWith_ref.mp found
    refine reduceWith_ref.mpr ⟨results, sameLength, ?_, rfl⟩
    intro pair member
    exact ih pair.1 (List.of_mem_zip member).1 pair.2 (reduced pair member)
  | binary op left right p ihLeft ihRight =>
    intro v found
    obtain ⟨l, r, reducedLeft, reducedRight, folded⟩ := reduceWith_binary.mp found
    exact reduceWith_binary.mpr ⟨l, r, ihLeft l reducedLeft, ihRight r reducedRight, folded⟩

/-- What an expression reduces to is its value, if that holds of its identifiers. -/
theorem evaluates_of_reduceWith {scope : Scope}
    (sound : ∀ id v, resolve id = .ok v → scope.Evaluates (.ident id) v) (e : Expr) :
    ∀ v, e.reduceWith resolve = .ok v → scope.Evaluates e v := by
  induction e using inductionOn with
  | ident id =>
    intro v found
    exact sound id v found
  | text value p =>
    intro v found
    cases found
    exact .text
  | number value p =>
    intro v found
    cases found
    exact .number
  | ref target args p ih =>
    intro v found
    obtain ⟨results, sameLength, reduced, rfl⟩ := reduceWith_ref.mp found
    refine .ref sameLength ?_
    intro pair member
    exact ih pair.1 (List.of_mem_zip member).1 pair.2 (reduced pair member)
  | binary op left right p ihLeft ihRight =>
    intro v found
    obtain ⟨l, r, reducedLeft, reducedRight, folded⟩ := reduceWith_binary.mp found
    obtain ⟨exact, a, b, q, s, known, rfl, rfl, rfl⟩ := fold_eq_ok.mp folded
    exact .binary known (ihLeft _ reducedLeft) (ihRight _ reducedRight)

end Expr

namespace Scope

variable {scope : Scope} {depth n m : Nat} {expanding : List String} {id : Identifier}
  {value v : Expr}

theorem mem_constants (found : scope.constants.lookup id.name = some value) :
    id.name ∈ scope.constants.map Prod.fst := by
  obtain ⟨before, after, split, _⟩ := List.lookup_eq_some_iff.mp found
  simp [split]

/-- The constants that are being expanded, with enough depth for all the others. -/
structure Chain (scope : Scope) (depth : Nat) (expanding : List String) : Prop where
  distinct : expanding.Nodup
  constants : ∀ name ∈ expanding, name ∈ scope.constants.map Prod.fst
  deep : scope.constants.length ≤ depth + expanding.length

theorem Chain.start (deep : scope.constants.length ≤ depth) : scope.Chain depth [] :=
  ⟨List.nodup_nil, by simp, by simpa using deep⟩

/-- A constant that is not being expanded yet leaves some depth: with none left, all constants are
being expanded. -/
theorem Chain.expand (chain : scope.Chain depth expanding)
    (found : scope.constants.lookup id.name = some value) (new : id.name ∉ expanding) :
    ∃ rest, depth = rest + 1 ∧ scope.Chain rest (id.name :: expanding) := by
  have known := mem_constants found
  cases depth with
  | zero =>
    have deep : (scope.constants.map Prod.fst).length ≤ expanding.length := by
      have := chain.deep
      simp only [List.length_map]
      omega
    have all : expanding.Perm (scope.constants.map Prod.fst) :=
      (List.subperm_of_subset chain.distinct chain.constants).perm_of_length_le deep
    exact absurd (all.mem_iff.mpr known) new
  | succ rest =>
    refine ⟨rest, rfl, List.nodup_cons.mpr ⟨new, chain.distinct⟩, ?_, ?_⟩
    · exact List.forall_mem_cons.mpr ⟨known, chain.constants⟩
    · have deep := chain.deep
      simp only [List.length_cons]
      omega

theorem resolve_none (none : scope.constants.lookup id.name = none) :
    scope.resolve depth expanding id =
      if scope.isBlock id.name then .ok (.ref id [] id.position)
      else .error (.inScript (.unknownIdentifier id.name) id.position) := by
  unfold resolve
  simp only [none]

theorem resolve_loop (found : scope.constants.lookup id.name = some value)
    (loops : id.name ∈ expanding) :
    scope.resolve depth expanding id = .error (.inScript (.constantLoop id.name) id.position) := by
  unfold resolve
  simp only [found, loops, if_true]

theorem resolve_expand (found : scope.constants.lookup id.name = some value)
    (new : id.name ∉ expanding) :
    scope.resolve (depth + 1) expanding id =
      value.reduceWith (scope.resolve depth (id.name :: expanding)) := by
  rw [resolve]
  simp only [found, new, if_false]

/-- It is the chain that ends the expansion, never the depth. -/
theorem Chain.resolve_eq (chain : scope.Chain n expanding) (longer : scope.Chain m expanding) :
    scope.resolve n expanding = scope.resolve m expanding := by
  induction n using Nat.strongRecOn generalizing m expanding with
  | ind n ih =>
    funext id
    cases found : scope.constants.lookup id.name with
    | none => rw [resolve_none found, resolve_none found]
    | some value =>
      by_cases loops : id.name ∈ expanding
      · rw [resolve_loop found loops, resolve_loop found loops]
      · obtain ⟨less, rfl, chainLess⟩ := chain.expand found loops
        obtain ⟨fewer, rfl, chainFewer⟩ := longer.expand found loops
        rw [resolve_expand found loops, resolve_expand found loops,
          ih less (Nat.lt_succ_self less) chainLess chainFewer]

/-- An identifier with a value names a block, or a constant that is not being expanded. -/
theorem resolve_ok (found : scope.resolve depth expanding id = .ok v) :
    (scope.constants.lookup id.name = none ∧ scope.isBlock id.name = true ∧
        v = .ref id [] id.position) ∨
      ∃ value rest, scope.constants.lookup id.name = some value ∧ depth = rest + 1 ∧
        value.reduceWith (scope.resolve rest (id.name :: expanding)) = .ok v := by
  unfold resolve at found
  split at found
  · rename_i value constant
    split at found
    · cases found
    · split at found
      · cases found
      · rename_i rest
        exact Or.inr ⟨value, rest, constant, rfl, found⟩
  · rename_i none
    split at found
    · rename_i block
      cases found
      exact Or.inl ⟨none, block, rfl⟩
    · cases found

theorem evaluates_of_resolve (found : scope.resolve depth expanding id = .ok v) :
    scope.Evaluates (.ident id) v := by
  induction depth using Nat.strongRecOn generalizing expanding id v with
  | ind depth ih =>
    rcases resolve_ok found with ⟨none, block, rfl⟩ | ⟨value, rest, constant, rfl, reduced⟩
    · exact .block none block
    · refine .constant constant (Expr.evaluates_of_reduceWith ?_ value v reduced)
      exact fun _ _ => ih rest (Nat.lt_succ_self rest)

/-- What an identifier evaluates to if constants are expanded at most `depth` deep inside each
other. -/
def nested (scope : Scope) : Nat → Identifier → Except Failure Expr
  | depth, id =>
    match scope.constants.lookup id.name with
    | some value =>
      match depth with
      | 0 => .error (.inScript (.constantLoop id.name) id.position)
      | depth + 1 => value.reduceWith (scope.nested depth)
    | none =>
      if scope.isBlock id.name then .ok (.ref id [] id.position)
      else .error (.inScript (.unknownIdentifier id.name) id.position)

theorem nested_none (none : scope.constants.lookup id.name = none) :
    scope.nested n id =
      if scope.isBlock id.name then .ok (.ref id [] id.position)
      else .error (.inScript (.unknownIdentifier id.name) id.position) := by
  unfold nested
  simp only [none]

theorem nested_constant (found : scope.constants.lookup id.name = some value) :
    scope.nested n id = .ok v ↔
      ∃ less, n = less + 1 ∧ value.reduceWith (scope.nested less) = .ok v := by
  unfold nested
  cases n <;> simp [found]

theorem nested_succ (found : scope.nested n id = .ok v) : scope.nested (n + 1) id = .ok v := by
  induction n using Nat.strongRecOn generalizing id v with
  | ind n ih =>
    cases constant : scope.constants.lookup id.name with
    | none =>
      rw [nested_none constant] at found ⊢
      exact found
    | some value =>
      obtain ⟨less, rfl, reduced⟩ := (nested_constant constant).mp found
      have deeper :=
        Expr.reduceWith_mono (fun _ _ => ih less (Nat.lt_succ_self less)) value v reduced
      exact (nested_constant constant).mpr ⟨less + 1, rfl, deeper⟩

theorem nested_mono (le : n ≤ m) {e : Expr} (found : e.reduceWith (scope.nested n) = .ok v) :
    e.reduceWith (scope.nested m) = .ok v := by
  induction le with
  | refl => exact found
  | step _ ih => exact Expr.reduceWith_mono (fun _ _ => nested_succ) e v ih

/-- Finitely many values have a common depth. -/
theorem exists_common_depth {pairs : List (Expr × Expr)}
    (each : ∀ pair ∈ pairs, ∃ n, pair.1.reduceWith (scope.nested n) = .ok pair.2) :
    ∃ n, ∀ pair ∈ pairs, pair.1.reduceWith (scope.nested n) = .ok pair.2 := by
  induction pairs with
  | nil => exact ⟨0, by simp⟩
  | cons pair rest ih =>
    obtain ⟨here, later⟩ := List.forall_mem_cons.mp each
    obtain ⟨n, first⟩ := here
    obtain ⟨m, others⟩ := ih later
    refine ⟨max n m, List.forall_mem_cons.mpr ⟨?_, ?_⟩⟩
    · exact nested_mono (Nat.le_max_left n m) first
    · intro other member
      exact nested_mono (Nat.le_max_right n m) (others other member)

theorem Evaluates.exists_depth {e : Expr} (evaluates : scope.Evaluates e v) :
    ∃ n, e.reduceWith (scope.nested n) = .ok v := by
  induction evaluates with
  | constant found _ ih =>
    obtain ⟨n, reduced⟩ := ih
    refine ⟨n + 1, ?_⟩
    rw [Expr.reduceWith]
    exact (nested_constant found).mpr ⟨n, rfl, reduced⟩
  | block none isBlock =>
    refine ⟨0, ?_⟩
    rw [Expr.reduceWith, nested_none none, if_pos isBlock]
  | text => exact ⟨0, by rw [Expr.reduceWith]⟩
  | number => exact ⟨0, by rw [Expr.reduceWith]⟩
  | ref sameLength _ ih =>
    obtain ⟨n, reduced⟩ := exists_common_depth ih
    exact ⟨n, Expr.reduceWith_ref.mpr ⟨_, sameLength, reduced, rfl⟩⟩
  | binary known _ _ ihLeft ihRight =>
    obtain ⟨n, left⟩ := ihLeft
    obtain ⟨m, right⟩ := ihRight
    have leftDeeper := nested_mono (Nat.le_max_left n m) left
    have rightDeeper := nested_mono (Nat.le_max_right n m) right
    exact ⟨max n m, Expr.reduceWith_binary.mpr ⟨_, _, leftDeeper, rightDeeper,
      Expr.fold_eq_ok.mpr ⟨_, _, _, _, _, known, rfl, rfl, rfl⟩⟩⟩

/-- The chain never stands in the way of a value. A constant whose value is found at least depth
needs no constant that is being expanded: that one would have a value at a smaller depth still. -/
theorem resolve_of_nested (found : scope.nested n id = .ok v) (chain : scope.Chain depth expanding)
    (deeper : ∀ name ∈ expanding, ∀ value, scope.constants.lookup name = some value →
      ∀ k < n, ∀ w, value.reduceWith (scope.nested k) ≠ .ok w) :
    scope.resolve depth expanding id = .ok v := by
  induction n using Nat.strongRecOn generalizing depth expanding id v with
  | ind n ih =>
    cases constant : scope.constants.lookup id.name with
    | none => rwa [resolve_none constant, ← nested_none constant]
    | some value =>
      obtain ⟨less, rfl, reduced⟩ := (nested_constant constant).mp found
      have new : id.name ∉ expanding := by
        intro member
        exact deeper id.name member value constant less (Nat.lt_succ_self less) v reduced
      -- At the least depth of its value, the constant itself satisfies what is asked of the chain.
      obtain ⟨least, below, minimal⟩ := exists_minimal_le_of_wellFoundedLT
        (fun k => ∃ w, value.reduceWith (scope.nested k) = .ok w) less ⟨v, reduced⟩
      obtain ⟨w, reducedLeast⟩ := minimal.prop
      have same : w = v := Except.ok.inj ((nested_mono below reducedLeast).symm.trans reduced)
      subst same
      obtain ⟨rest, rfl, chainRest⟩ := chain.expand constant new
      rw [resolve_expand constant new]
      refine Expr.reduceWith_mono ?_ value w reducedLeast
      intro inner result foundInner
      refine ih least (Nat.lt_succ_of_le below) foundInner chainRest ?_
      refine List.forall_mem_cons.mpr ⟨?_, ?_⟩
      · intro other sameConstant k smaller u reducedLess
        cases constant.symm.trans sameConstant
        exact minimal.not_prop_of_lt smaller ⟨u, reducedLess⟩
      · intro name member other found k smaller
        exact deeper name member other found k (by omega)

end Scope

theorem Expr.evaluates_of_reduce {scope : Scope} {e v : Expr} (reduced : e.reduce scope = .ok v) :
    scope.Evaluates e v :=
  evaluates_of_reduceWith (fun _ _ => Scope.evaluates_of_resolve) e v reduced

/-- Reduction gives an expression the value that plain evaluation gives it, and fails if there is
none, also where constants refer to each other in a circle. A greater depth of expansion changes
nothing, so the reduction of every expression comes to its end by itself. -/
theorem Expr.reduce_exact (scope : Scope) (e : Expr) :
    (∀ v, e.reduce scope = .ok v ↔ scope.Evaluates e v) ∧
      ∀ more, e.reduceWith (scope.resolve (scope.constants.length + more) []) = e.reduce scope := by
  have start : scope.Chain scope.constants.length [] := .start (Nat.le_refl _)
  refine ⟨fun v => ⟨?_, ?_⟩, ?_⟩
  · exact evaluates_of_reduceWith (fun _ _ => Scope.evaluates_of_resolve) e v
  · intro evaluates
    obtain ⟨n, reduced⟩ := evaluates.exists_depth
    refine reduceWith_mono ?_ e v reduced
    intro id result found
    exact Scope.resolve_of_nested found start (by simp)
  · intro more
    have longer : scope.Chain (scope.constants.length + more) [] := .start (Nat.le_add_right _ _)
    rw [longer.resolve_eq start, reduce]

end Grf
