import Grf.Proofs.Evaluation
import Mathlib.Data.Int.ModEq

namespace Grf

/-- The number that an expression stands for in exact arithmetic, with constants expanded in place.
Only literals are words. -/
inductive Scope.Denotes (scope : Scope) : Expr → Int → Prop
  | number {value p} : Denotes scope (.number value p) value.toInt
  | constant {id value z} : scope.constants.lookup id.name = some value → Denotes scope value z →
      Denotes scope (.ident id) z
  | binary {op exact left right a b p} : op.exact? = some exact → Denotes scope left a →
      Denotes scope right b → Denotes scope (.binary op left right p) (exact a b)

/-- Sums, differences and products can be taken first and wrapped afterwards. -/
theorem Operator.ofInt_exact {op : Operator} {exact : Int → Int → Int}
    (known : op.exact? = some exact) (a b : Int) :
    Int64.ofInt (exact (Int64.ofInt a).toInt (Int64.ofInt b).toInt) = Int64.ofInt (exact a b) := by
  cases op with
  | add =>
    cases known
    simp only [Int64.ofInt_add, Int64.ofInt_toInt]
  | sub =>
    cases known
    simp only [Int64.ofInt_sub, Int64.ofInt_toInt]
  | mul =>
    cases known
    simp only [Int64.ofInt_mul, Int64.ofInt_toInt]
  | unknown code => cases known

namespace Scope

variable {scope : Scope} {e v : Expr} {a b z : Int}

theorem Denotes.unique (first : scope.Denotes e a) (second : scope.Denotes e b) : a = b := by
  induction first generalizing b with
  | number =>
    cases second
    rfl
  | constant found _ ih =>
    cases second with
    | constant again denotes =>
      cases found.symm.trans again
      exact ih denotes
  | binary known _ _ ihLeft ihRight =>
    cases second with
    | binary again left right =>
      cases known.symm.trans again
      rw [ihLeft left, ihRight right]

theorem Denotes.evaluates (denotes : scope.Denotes e z) :
    ∃ p, scope.Evaluates e (.number (.ofInt z) p) := by
  induction denotes with
  | @number value p =>
    rw [Int64.ofInt_toInt]
    exact ⟨p, .number⟩
  | constant found _ ih =>
    obtain ⟨p, evaluates⟩ := ih
    exact ⟨p, .constant found evaluates⟩
  | @binary op exact left right a b p known _ _ ihLeft ihRight =>
    obtain ⟨q, evaluatesLeft⟩ := ihLeft
    obtain ⟨r, evaluatesRight⟩ := ihRight
    rw [← Operator.ofInt_exact known]
    exact ⟨p, .binary known evaluatesLeft evaluatesRight⟩

/-- Each operation wraps on its own, and the results are still the wrapped exact numbers. -/
theorem Evaluates.denotes (evaluates : scope.Evaluates e v) :
    ∀ n p, v = .number n p → ∃ z, scope.Denotes e z ∧ n = .ofInt z := by
  induction evaluates with
  | constant found _ ih =>
    intro n p same
    obtain ⟨z, denotes, wrapped⟩ := ih n p same
    exact ⟨z, .constant found denotes, wrapped⟩
  | block => simp
  | text => simp
  | @number value =>
    intro n p same
    cases same
    exact ⟨value.toInt, .number, (Int64.ofInt_toInt value).symm⟩
  | ref => simp
  | binary known _ _ ihLeft ihRight =>
    intro n p same
    cases same
    obtain ⟨x, left, rfl⟩ := ihLeft _ _ rfl
    obtain ⟨y, right, rfl⟩ := ihRight _ _ rfl
    exact ⟨_, .binary known left right, Operator.ofInt_exact known x y⟩

theorem Evaluates.reduce_eq (evaluates : scope.Evaluates e v) : e.reduce scope = .ok v := by
  obtain ⟨n, reduced⟩ := evaluates.exists_depth
  refine Expr.reduceWith_mono ?_ e v reduced
  intro id result found
  exact resolve_of_nested found (.start (Nat.le_refl _)) (by simp)

end Scope

/-- Among the numbers that differ from `z` by a multiple of 2 ^ 64, just one is a signed word. -/
theorem toInt_ofInt_iff (z k : Int) :
    (-2 ^ 63 ≤ k ∧ k < 2 ^ 63 ∧ k ≡ z [ZMOD 2 ^ 64]) ↔ k = (Int64.ofInt z).toInt := by
  rw [Int64.toInt_ofInt, Int.bmod_def, Int.ModEq]
  simp only [Int64.size]
  omega

/-- An expression that is folded to a number has one value in exact arithmetic, and the number is the
signed word congruent to that value, however often the folding wrapped around on the way. Every
expression with an exact value is folded to a number. -/
theorem Expr.reduce_wraps (scope : Scope) (e : Expr) :
    (∀ n p, e.reduce scope = .ok (.number n p) →
      ∃ z, (∀ y, scope.Denotes e y ↔ y = z) ∧
        ∀ k : Int, (-2 ^ 63 ≤ k ∧ k < 2 ^ 63 ∧ k ≡ z [ZMOD 2 ^ 64]) ↔ k = n.toInt) ∧
    ∀ z, scope.Denotes e z → ∃ n p, e.reduce scope = .ok (.number n p) := by
  constructor
  · intro n p reduced
    obtain ⟨z, denotes, rfl⟩ := (evaluates_of_reduce reduced).denotes n p rfl
    refine ⟨z, fun y => ⟨fun other => other.unique denotes, ?_⟩, toInt_ofInt_iff z⟩
    rintro rfl
    exact denotes
  · intro z denotes
    obtain ⟨p, evaluates⟩ := denotes.evaluates
    exact ⟨_, p, evaluates.reduce_eq⟩

-- The constant wraps around, and the difference comes back.
example :
    (Expr.binary .sub (.ident ⟨"most", none⟩) (.number 3 none) none).reduce
        ⟨[("most", .binary .add (.number Int64.maxValue none) (.number 2 none) none)],
          fun _ => false⟩ =
      .ok (.number (Int64.maxValue - 1) none) := by
  rfl

end Grf
