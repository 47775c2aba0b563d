import Grf.Compilation.Validation
import Grf.Proofs.Evaluation
import Grf.Proofs.Validation

namespace Grf

/-- No reference occurs in the expression. All that it names, it names by identifiers. -/
def Expr.isPlain : Expr → Bool
  | ident _ => true
  | text _ _ => true
  | number _ _ => true
  | ref _ _ _ => false
  | binary _ left right _ => left.isPlain && right.isPlain

/-- Constants lead from an expression to an identifier that is none of them. -/
inductive Leads (constants : List (String × Expr)) : Expr → Identifier → Prop
  | stop {id} : constants.lookup id.name = none → Leads constants (.ident id) id
  | step {id value last} : constants.lookup id.name = some value → Leads constants value last →
      Leads constants (.ident id) last

/-- One place of a block before and after its validation. -/
def Expr.Refined (scope : Scope) (v w : Expr) : Prop :=
  w = v ∨ v.reduce scope = .ok w

theorem Expr.refined_refl (scope : Scope) (es : List Expr) : List.Forall₂ (Refined scope) es es :=
  List.forall₂_same.mpr fun _ _ => Or.inl rfl

theorem forall₂_comp {α β γ : Type} {R : α → β → Prop} {S : β → γ → Prop} {T : α → γ → Prop}
    (compose : ∀ {a b c}, R a b → S b c → T a c) {as : List α} {bs : List β} {cs : List γ}
    (first : List.Forall₂ R as bs) (second : List.Forall₂ S bs cs) : List.Forall₂ T as cs := by
  induction first generalizing cs with
  | nil =>
    cases second
    exact .nil
  | cons here _ ih =>
    cases second with
    | cons next rest => exact .cons (compose here next) (ih rest)

theorem exists_of_forall₂ {α β : Type} {R : α → β → Prop} {as : List α} {bs : List β} {b : β}
    (all : List.Forall₂ R as bs) (member : b ∈ bs) : ∃ a ∈ as, R a b := by
  induction all with
  | nil => cases member
  | cons here _ ih =>
    rcases List.mem_cons.mp member with rfl | later
    · exact ⟨_, List.mem_cons_self, here⟩
    · obtain ⟨a, inside, related⟩ := ih later
      exact ⟨a, List.mem_cons_of_mem _ inside, related⟩

theorem getElem?_of_forall₂ {α β : Type} {R : α → β → Prop} {as : List α} {bs : List β} {a : α}
    {i : Nat} (all : List.Forall₂ R as bs) (atI : as[i]? = some a) :
    ∃ b, bs[i]? = some b ∧ R a b := by
  induction all generalizing i with
  | nil => cases atI
  | cons here _ ih =>
    cases i with
    | zero =>
      cases atI
      exact ⟨_, rfl, here⟩
    | succ i => exact ih atI

theorem Reference.ofExpr?_eq_some {v : Expr} {r : Reference} :
    ofExpr? v = some r ↔ v = r.toExpr := by
  cases r
  cases v <;> simp [ofExpr?, toExpr]

namespace Scope

variable {scope larger : Scope} {e v w : Expr}

/-- What a plain expression is reduced to. -/
inductive Settles (scope : Scope) (e : Expr) : Expr → Prop
  | text {value p} : Settles scope e (.text value p)
  | number {value p} : Settles scope e (.number value p)
  | reference {id} : Leads scope.constants e id → scope.isBlock id.name = true →
      Settles scope e (.ref id [] id.position)

/-- A plain expression stands as it was given, or reduced. -/
structure Became (scope : Scope) (e v : Expr) : Prop where
  plain : e.isPlain = true
  settled : v = e ∨ scope.Settles e v

theorem Evaluates.settles (constants : ∀ entry ∈ scope.constants, entry.2.isPlain = true)
    (evaluates : scope.Evaluates e v) (plain : e.isPlain = true) : scope.Settles e v := by
  induction evaluates with
  | constant found _ ih =>
    obtain ⟨before, rest, split, _⟩ := List.lookup_eq_some_iff.mp found
    have member : (_, _) ∈ scope.constants := split ▸ List.mem_append_cons_self
    cases ih (constants _ member) with
    | text => exact .text
    | number => exact .number
    | reference leads known => exact .reference (.step found leads) known
  | block free known => exact .reference (.stop free) known
  | text => exact .text
  | number => exact .number
  | ref => cases plain
  | binary => exact .number

/-- Values do not change any more. -/
theorem Settles.eq_of_reduce (settles : scope.Settles e v) (reduced : v.reduce larger = .ok w) :
    w = v := by
  cases settles with
  | text =>
    cases reduced
    rfl
  | number =>
    cases reduced
    rfl
  | reference =>
    obtain ⟨results, empty, _, rfl⟩ := Expr.reduceWith_ref.mp reduced
    rw [List.eq_nil_of_length_eq_zero empty.symm]

namespace Became

theorem refine (constants : ∀ entry ∈ scope.constants, entry.2.isPlain = true)
    (became : scope.Became e v) (refined : v.Refined scope w) : scope.Became e w := by
  refine ⟨became.plain, ?_⟩
  rcases refined with rfl | reduced
  · exact became.settled
  · right
    rcases became.settled with rfl | settles
    · exact (Expr.evaluates_of_reduce reduced).settles constants became.plain
    · rwa [settles.eq_of_reduce reduced]

/-- More blocks do no harm. -/
theorem mono (constants : larger.constants = scope.constants)
    (blocks : ∀ name, scope.isBlock name = true → larger.isBlock name = true)
    (became : scope.Became e v) : larger.Became e v := by
  refine ⟨became.plain, became.settled.imp_right ?_⟩
  intro settles
  cases settles with
  | text => exact .text
  | number => exact .number
  | reference leads known => exact .reference (constants ▸ leads) (blocks _ known)

/-- A reference was written as an identifier. -/
theorem leads {r : Reference} (became : scope.Became e v) (isRef : Reference.ofExpr? v = some r) :
    Leads scope.constants e r.target ∧ scope.isBlock r.target.name = true := by
  rcases became.settled with rfl | settles
  · have plain := became.plain
    rw [Reference.ofExpr?_eq_some.mp isRef] at plain
    cases plain
  · cases settles with
    | text => cases isRef
    | number => cases isRef
    | reference leads known =>
      cases isRef
      exact ⟨leads, known⟩

/-- Where all places are references, they are those that were written, in order. -/
theorem leads_all {es vs : List Expr} (became : List.Forall₂ scope.Became es vs)
    (complete : ∀ v ∈ vs, (Reference.ofExpr? v).isSome = true) :
    List.Forall₂ (fun e r => Leads scope.constants e r.target) es
      (vs.filterMap Reference.ofExpr?) := by
  induction became with
  | nil => exact .nil
  | cons here _ ih =>
    obtain ⟨isRef, later⟩ := List.forall_mem_cons.mp complete
    obtain ⟨r, found⟩ := Option.isSome_iff_exists.mp isRef
    rw [List.filterMap_cons_some found]
    exact .cons (here.leads found).1 (ih later)

end Became

end Scope

def SpriteGroup.expressions (g : SpriteGroup) : List Expr :=
  g.views.flatMap (·.sets)

def SpriteLayout.expressions (l : SpriteLayout) : List Expr :=
  l.sprites.flatMap fun s => s.params.map (·.value)

/-- The places of a block where other blocks can be named. -/
def Block.expressions : Block → List Expr
  | set _ => []
  | group g => g.expressions
  | layout l => l.expressions

def Declaration.expressions : Declaration → List Expr
  | template _ _ => []
  | block b => b.expressions

theorem Block.references_eq (b : Block) :
    b.references = b.expressions.filterMap Reference.ofExpr? := by
  cases b with
  | set s => rfl
  | group g => exact List.filterMap_flatMap.symm
  | layout l =>
    simp only [references, SpriteLayout.references, expressions, SpriteLayout.expressions,
      List.filterMap_flatMap, List.filterMap_map]
    rfl

/-- Once a group is validated, all its elements are references. -/
def Block.IsComplete : Block → Prop
  | group g => g.lifecycle.stage ≠ .unvalidated →
      ∀ v ∈ g.expressions, (Reference.ofExpr? v).isSome = true
  | _ => True

/-- A block before and after a step. -/
structure Block.Refined (scope : Scope) (a b : Block) : Prop where
  expressions : List.Forall₂ (Expr.Refined scope) a.expressions b.expressions
  complete : a.IsComplete → b.IsComplete

section Validation

variable {scope : Scope} {v w : Expr}

theorem Block.Refined.refl (scope : Scope) (b : Block) : b.Refined scope b :=
  ⟨Expr.refined_refl scope _, id⟩

theorem Block.refined_withLifecycle {b : Block} (validated : b.lifecycle.stage ≠ .unvalidated)
    (scope : Scope) (e : Lifecycle) : b.Refined scope (b.withLifecycle e) := by
  cases b with
  | set s => exact ⟨.nil, id⟩
  | group g => exact ⟨Expr.refined_refl scope _, fun complete _ => complete validated⟩
  | layout l => exact ⟨Expr.refined_refl scope _, id⟩

/-- A reference stays one. -/
theorem Expr.Refined.isSome (refined : v.Refined scope w)
    (isRef : (Reference.ofExpr? v).isSome = true) : (Reference.ofExpr? w).isSome = true := by
  rcases refined with rfl | reduced
  · exact isRef
  · obtain ⟨r, found⟩ := Option.isSome_iff_exists.mp isRef
    rw [Reference.ofExpr?_eq_some.mp found] at reduced
    obtain ⟨_, _, _, rfl⟩ := Expr.reduceWith_ref.mp reduced
    rfl

theorem SpriteView.reduceElements_ok {elements reduced : List Expr}
    (run : reduceElements scope elements = .ok reduced) :
    List.Forall₂ (fun v w => v.reduce scope = .ok w ∧ (Reference.ofExpr? w).isSome = true)
      elements reduced := by
  induction elements generalizing reduced with
  | nil =>
    cases run
    exact .nil
  | cons e rest ih =>
    unfold reduceElements at run
    split at run
    · cases run
    · rename_i target args p here
      split at run
      · cases run
      · rename_i others later
        cases run
        exact .cons ⟨here, rfl⟩ (ih later)
    · cases run

namespace SpriteGroup

/-- Also where validation fails, since the views before the failure are reduced. -/
theorem validateViews_places (scope : Scope) (views : List SpriteView) :
    List.Forall₂ (fun v w => List.Forall₂ (Expr.Refined scope) v.sets w.sets) views
      (validateViews scope views).2 := by
  induction views with
  | nil => exact .nil
  | cons v rest ih =>
    cases run : SpriteView.reduceElements scope v.sets with
    | error failure =>
      simp only [validateViews, SpriteView.validate, run]
      exact List.forall₂_same.mpr fun w _ => Expr.refined_refl scope w.sets
    | ok sets =>
      simp only [validateViews, SpriteView.validate, run]
      have here : List.Forall₂ (Expr.Refined scope) v.sets sets :=
        (SpriteView.reduceElements_ok run).imp fun _ _ reduced => Or.inr reduced.1
      exact .cons here ih

theorem validateViews_refined (scope : Scope) (views : List SpriteView) :
    List.Forall₂ (Expr.Refined scope) (views.flatMap (·.sets))
      ((validateViews scope views).2.flatMap (·.sets)) :=
  List.rel_flatMap (validateViews_places scope views) fun _ _ sets => sets

theorem validateViews_complete {views : List SpriteView}
    (passed : (validateViews scope views).1 = .ok ()) :
    ∀ v ∈ (validateViews scope views).2.flatMap (·.sets),
      (Reference.ofExpr? v).isSome = true := by
  induction views with
  | nil => simp [validateViews]
  | cons v rest ih =>
    cases run : SpriteView.reduceElements scope v.sets with
    | error failure =>
      simp only [validateViews, SpriteView.validate, run] at passed
      cases passed
    | ok sets =>
      simp only [validateViews, SpriteView.validate, run, List.flatMap_cons] at passed ⊢
      refine List.forall_mem_append.mpr ⟨?_, ih passed⟩
      intro w member
      obtain ⟨_, _, _, isRef⟩ := exists_of_forall₂ (SpriteView.reduceElements_ok run) member
      exact isRef

theorem validate_views (g : SpriteGroup) (scope : Scope) :
    (g.validate scope).2.views = (validateViews scope g.views).2 ∧
      ((g.validate scope).1 = .ok () → (validateViews scope g.views).1 = .ok ()) := by
  unfold validate
  split
  · rename_i run
    rw [run]
    exact ⟨rfl, id⟩
  · rename_i run
    rw [run]
    split <;> exact ⟨rfl, fun _ => rfl⟩

theorem validate_refined (g : SpriteGroup) (scope : Scope) :
    (Block.group g).Refined scope (.group (g.validate scope).2) := by
  obtain ⟨views, passes⟩ := g.validate_views scope
  have expressions : (g.validate scope).2.expressions =
      (validateViews scope g.views).2.flatMap (·.sets) := by
    rw [SpriteGroup.expressions, views]
  have refined := validateViews_refined scope g.views
  rw [← expressions] at refined
  refine ⟨refined, ?_⟩
  intro complete validated w member
  rcases (g.validate_cases scope).2 with ⟨passed, _⟩ | ⟨_, lifecycle⟩
  · rw [expressions] at member
    exact validateViews_complete (passes passed) w member
  · rw [lifecycle] at validated
    obtain ⟨v, before, step⟩ := exists_of_forall₂ refined member
    exact step.isSome (complete validated v before)

end SpriteGroup

theorem LayoutParam.reduce_refined (p : LayoutParam) (scope : Scope) :
    p.value.Refined scope (p.reduce scope).value := by
  unfold reduce
  split
  · rename_i reduced
    exact Or.inr reduced
  · exact Or.inl rfl

theorem SpriteLayout.validate_refined (l : SpriteLayout) (scope : Scope) :
    (Block.layout l).Refined scope (.layout (l.validate scope)) := by
  refine ⟨?_, id⟩
  simp only [Block.expressions, expressions, validate, List.flatMap_map]
  have same : List.Forall₂ Eq l.sprites l.sprites := List.forall₂_refl _
  refine List.rel_flatMap same ?_
  rintro s _ rfl
  simp only [LayoutSprite.reduce, List.map_map, List.forall₂_map_left_iff,
    List.forall₂_map_right_iff]
  exact List.forall₂_same.mpr fun p _ => p.reduce_refined scope

end Validation

end Grf
