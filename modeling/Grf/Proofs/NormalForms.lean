import Grf.Proofs.Settling

namespace Grf

namespace Expr

/-- An expression stands in another one, at any depth, or is that one itself. The name of a reference
is no expression. -/
inductive Within : Expr → Expr → Prop
  | here {e} : Within e e
  | argument {part e target args p} : e ∈ args → Within part e → Within part (.ref target args p)
  | left {part op left right p} : Within part left → Within part (.binary op left right p)
  | right {part op left right p} : Within part right → Within part (.binary op left right p)

/-- Nothing is left to look up and nothing to compute. -/
structure IsNormal (v : Expr) : Prop where
  noIdentifier : ∀ id, ¬ (ident id).Within v
  noOperation : ∀ op left right p, ¬ (binary op left right p).Within v

/-- What expressions are reduced to. -/
inductive IsValue : Expr → Prop
  | text {value p} : IsValue (.text value p)
  | number {value p} : IsValue (.number value p)
  | ref {target args p} : (∀ e ∈ args, IsValue e) → IsValue (.ref target args p)

namespace IsValue

variable {v part : Expr}

theorem of_within (isValue : v.IsValue) (within : part.Within v) : part.IsValue := by
  induction within with
  | here => exact isValue
  | argument member _ ih =>
    cases isValue with
    | ref all => exact ih (all _ member)
  | left => cases isValue
  | right => cases isValue

theorem isNormal (isValue : v.IsValue) : v.IsNormal := by
  constructor
  · intro id within
    cases isValue.of_within within
  · intro op left right p within
    cases isValue.of_within within

/-- A value is reduced to itself, whatever identifiers stand for. -/
theorem reduceWith_eq (isValue : v.IsValue) (resolve : Identifier → Except Failure Expr) :
    v.reduceWith resolve = .ok v := by
  induction isValue with
  | text => rw [reduceWith]
  | number => rw [reduceWith]
  | @ref target args p _ ih =>
    refine reduceWith_ref.mpr ⟨args, rfl, ?_, rfl⟩
    rw [List.zip, List.zipWith_self]
    intro pair member
    obtain ⟨e, inside, rfl⟩ := List.mem_map.mp member
    exact ih e inside

end IsValue

/-- Constants, arguments and operands bring values in, and what is made of them is a value. -/
theorem isValue_of_evaluates {scope : Scope} {e v : Expr} (evaluates : scope.Evaluates e v) :
    v.IsValue := by
  induction evaluates with
  | constant _ _ ih => exact ih
  | block => exact .ref (by simp)
  | text => exact .text
  | number => exact .number
  | @ref target args results p sameLength _ ih =>
    refine .ref fun result member => ?_
    rw [← List.map_snd_zip (Nat.le_of_eq sameLength.symm)] at member
    obtain ⟨pair, paired, rfl⟩ := List.mem_map.mp member
    exact ih pair paired
  | binary => exact .number

theorem isValue_of_reduce {scope : Scope} {e v : Expr} (reduced : e.reduce scope = .ok v) :
    v.IsValue :=
  isValue_of_evaluates (evaluates_of_reduce reduced)

end Expr

/-- The element at a place of a view. -/
def SpriteGroup.element? (g : SpriteGroup) (view place : Nat) : Option Expr :=
  g.views[view]?.bind (·.sets[place]?)

/-- The value of a parameter of one of the sprites. -/
def SpriteLayout.value? (l : SpriteLayout) (sprite param : Nat) : Option Expr :=
  l.sprites[sprite]?.bind fun s => s.params[param]?.map (·.value)

/-- Validates a group several times, while constants and names of blocks may change in between. -/
def SpriteGroup.validateEach (g : SpriteGroup) (scopes : List Scope) : SpriteGroup :=
  scopes.foldl (fun g scope => (g.validate scope).2) g

def SpriteLayout.validateEach (l : SpriteLayout) (scopes : List Scope) : SpriteLayout :=
  scopes.foldl SpriteLayout.validate l

namespace Expr

variable {v w : Expr} {i j : Nat}

theorem IsValue.eq_of_refined {scope : Scope} (isValue : v.IsValue) (refined : v.Refined scope w) :
    w = v := by
  rcases refined with same | reduced
  · exact same
  · exact Except.ok.inj (reduced.symm.trans (isValue.reduceWith_eq _))

theorem IsValue.element?_validate (isValue : v.IsValue) {g : SpriteGroup}
    (atPlace : g.element? i j = some v) (scope : Scope) :
    (g.validate scope).2.element? i j = some v := by
  -- All places stay where they are, also if validation fails on the way.
  obtain ⟨view, atI, atJ⟩ := Option.bind_eq_some_iff.mp atPlace
  obtain ⟨after, atIAfter, sets⟩ :=
    getElem?_of_forall₂ (SpriteGroup.validateViews_places scope g.views) atI
  obtain ⟨w, atJAfter, refined⟩ := getElem?_of_forall₂ sets atJ
  rw [isValue.eq_of_refined refined] at atJAfter
  rw [SpriteGroup.element?, (g.validate_views scope).1, atIAfter]
  exact atJAfter

theorem IsValue.value?_validate (isValue : v.IsValue) {l : SpriteLayout}
    (atPlace : l.value? i j = some v) (scope : Scope) :
    (l.validate scope).value? i j = some v := by
  obtain ⟨s, atI, param⟩ := Option.bind_eq_some_iff.mp atPlace
  obtain ⟨p, atJ, rfl⟩ := Option.map_eq_some_iff.mp param
  have kept : (p.reduce scope).value = p.value := isValue.eq_of_refined (p.reduce_refined scope)
  simp [SpriteLayout.value?, SpriteLayout.validate, LayoutSprite.reduce, atI, atJ, kept]

theorem IsValue.element?_validateEach (isValue : v.IsValue) {g : SpriteGroup}
    (atPlace : g.element? i j = some v) (scopes : List Scope) :
    (g.validateEach scopes).element? i j = some v := by
  induction scopes generalizing g with
  | nil => exact atPlace
  | cons scope rest ih => exact ih (isValue.element?_validate atPlace scope)

theorem IsValue.value?_validateEach (isValue : v.IsValue) {l : SpriteLayout}
    (atPlace : l.value? i j = some v) (scopes : List Scope) :
    (l.validateEach scopes).value? i j = some v := by
  induction scopes generalizing l with
  | nil => exact atPlace
  | cons scope rest ih => exact ih (isValue.value?_validate atPlace scope)

/-- What an expression is reduced to holds no identifier and no operation, at any depth. It is reduced
to itself ever after, whatever its names have come to stand for. In a group or a layout it keeps its
place through all later validations. -/
theorem reduce_normal {scope : Scope} {e v : Expr} (reduced : e.reduce scope = .ok v) :
    v.IsNormal ∧
    (∀ other : Scope, v.reduce other = .ok v) ∧
    (∀ resolve, v.reduceWith resolve = .ok v) ∧
    (∀ (g : SpriteGroup) (scopes : List Scope) (i j : Nat),
      g.element? i j = some v → (g.validateEach scopes).element? i j = some v) ∧
    ∀ (l : SpriteLayout) (scopes : List Scope) (i j : Nat),
      l.value? i j = some v → (l.validateEach scopes).value? i j = some v := by
  have isValue := isValue_of_reduce reduced
  refine ⟨isValue.isNormal, fun other => isValue.reduceWith_eq _, isValue.reduceWith_eq, ?_, ?_⟩
  · exact fun g scopes i j atPlace => isValue.element?_validateEach atPlace scopes
  · exact fun l scopes i j atPlace => isValue.value?_validateEach atPlace scopes

/-- A crossing whose length is computed and which leads to a plain one. -/
def crossing : Expr :=
  .ref ⟨"bridge", none⟩ [.binary .mul (.ident ⟨"span", none⟩) (.number 2 none) none,
    .ident ⟨"bridge", none⟩] none

def crossed : Expr :=
  .ref ⟨"bridge", none⟩ [.number 14 none, .ref ⟨"bridge", none⟩ [] none] none

/-- The name of the bridge belongs to a constant that refers to itself. -/
def detour : Scope :=
  ⟨[("bridge", .ident ⟨"bridge", none⟩)], fun _ => false⟩

/-- A group that holds the reduced crossing is validated where the bridge cannot be looked up any
more. -/
theorem reduce_normal_crossing :
    crossing.reduce ⟨[("span", .number 7 none)], (· == "bridge")⟩ = .ok crossed ∧
      crossed.IsNormal ∧ crossed.reduce detour = .ok crossed ∧
      (SpriteGroup.validateEach ⟨⟨"river", none⟩, [⟨⟨"default", none⟩, [crossed], none⟩], none, {}⟩
        [detour, detour]).element? 0 0 = some crossed := by
  have reduced : crossing.reduce ⟨[("span", .number 7 none)], (· == "bridge")⟩ = .ok crossed := rfl
  obtain ⟨normal, again, _, inGroups, _⟩ := reduce_normal reduced
  exact ⟨reduced, normal, again detour, inGroups _ _ 0 0 rfl⟩

end Expr

end Grf
