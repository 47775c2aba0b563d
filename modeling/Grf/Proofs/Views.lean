import Grf.Proofs.Settling

namespace Grf

variable {scope : Scope} {failure : Failure}

/-- Unless all elements of a list have a property, there is a first one without it. -/
theorem exists_first_without {α : Type} {p : α → Prop} {l : List α} (lacking : ¬ ∀ x ∈ l, p x) :
    ∃ before x after, l = before ++ x :: after ∧ (∀ y ∈ before, p y) ∧ ¬ p x := by
  classical
  cases found : l.find? (fun x => !decide (p x)) with
  | none =>
    refine absurd ?_ lacking
    intro x member
    simpa using List.find?_eq_none.mp found x member
  | some x =>
    obtain ⟨fails, before, after, rfl, passes⟩ := List.find?_eq_some_iff_append.mp found
    exact ⟨before, x, after, rfl, fun y member => by simpa using passes y member,
      by simpa using fails⟩

/-- The expression is reduced, and to a reference. -/
def Expr.ReducesTo (scope : Scope) (e : Expr) (r : Reference) : Prop :=
  e.reduce scope = .ok r.toExpr

namespace SpriteView

/-- Every element of the view reduces to a reference. -/
def Reduces (scope : Scope) (v : SpriteView) : Prop :=
  ∀ e ∈ v.sets, ∃ r, e.ReducesTo scope r

/-- The failure at the first element that does not reduce to a reference: that of its reduction, or
that it comes out as something else. -/
inductive Stops (scope : Scope) (elements : List Expr) : Failure → Prop
  | unreduced {done e rest failure} : elements = done ++ e :: rest →
      (∀ d ∈ done, ∃ r, Expr.ReducesTo scope d r) → e.reduce scope = .error failure →
      Stops scope elements failure
  | other {done e rest value} : elements = done ++ e :: rest →
      (∀ d ∈ done, ∃ r, Expr.ReducesTo scope d r) → e.reduce scope = .ok value →
      Reference.ofExpr? value = none →
      Stops scope elements (.inScript .viewElement e.position)

/-- `w` is the view `v` with the reference that it reduces to in the place of every element. -/
structure Becomes (scope : Scope) (v w : SpriteView) : Prop where
  name : w.name = v.name
  position : w.position = v.position
  sets : w.sets = w.references.map Reference.toExpr
  elements : List.Forall₂ (Expr.ReducesTo scope) v.sets w.references

theorem reduceElements_cons {e : Expr} {r : Reference} (reduces : e.ReducesTo scope r)
    (rest : List Expr) :
    reduceElements scope (e :: rest) = (reduceElements scope rest).map (r.toExpr :: ·) := by
  have here : e.reduce scope = .ok (.ref r.target r.args r.position) := reduces
  rw [reduceElements, here]
  cases reduceElements scope rest <;> rfl

theorem reduceElements_passed {elements : List Expr}
    (reduces : ∀ e ∈ elements, ∃ r, Expr.ReducesTo scope e r) :
    ∃ references, List.Forall₂ (Expr.ReducesTo scope) elements references ∧
      reduceElements scope elements = .ok (references.map Reference.toExpr) := by
  induction elements with
  | nil => exact ⟨[], .nil, rfl⟩
  | cons e rest ih =>
    obtain ⟨⟨r, here⟩, later⟩ := List.forall_mem_cons.mp reduces
    obtain ⟨references, pointwise, run⟩ := ih later
    refine ⟨r :: references, .cons here pointwise, ?_⟩
    rw [reduceElements_cons here, run]
    rfl

theorem reduceElements_append {done : List Expr}
    (reduces : ∀ d ∈ done, ∃ r, Expr.ReducesTo scope d r) {rest : List Expr}
    (failed : reduceElements scope rest = .error failure) :
    reduceElements scope (done ++ rest) = .error failure := by
  induction done with
  | nil => exact failed
  | cons d done ih =>
    obtain ⟨⟨r, here⟩, later⟩ := List.forall_mem_cons.mp reduces
    rw [List.cons_append, reduceElements_cons here, ih later]
    rfl

theorem reduceElements_stopped {elements : List Expr} (stops : Stops scope elements failure) :
    reduceElements scope elements = .error failure := by
  cases stops with
  | unreduced split reduces failed =>
    rw [split]
    refine reduceElements_append reduces ?_
    rw [reduceElements, failed]
  | @other done e rest value split reduces reduced unlike =>
    rw [split]
    refine reduceElements_append reduces ?_
    rw [reduceElements, reduced]
    cases value with
    | ref target args position => cases unlike
    | ident | text | number | binary => rfl

theorem exists_stops {v : SpriteView} (lacking : ¬ v.Reduces scope) :
    ∃ failure, Stops scope v.sets failure := by
  obtain ⟨done, e, rest, split, reduces, none⟩ := exists_first_without lacking
  cases reduced : e.reduce scope with
  | error failure => exact ⟨failure, .unreduced split reduces reduced⟩
  | ok value =>
    refine ⟨_, .other split reduces reduced ?_⟩
    refine Option.eq_none_iff_forall_ne_some.mpr fun r isRef => none ⟨r, ?_⟩
    rw [Expr.ReducesTo, reduced, Reference.ofExpr?_eq_some.mp isRef]

theorem references_map_toExpr (references : List Reference) :
    (references.map Reference.toExpr).filterMap Reference.ofExpr? = references := by
  rw [List.filterMap_map]
  exact List.filterMap_some

/-- The result of reducing a view is found again in its references, none of them skipped. -/
theorem validate_passed {v : SpriteView} (reduces : v.Reduces scope) :
    ∃ w, v.validate scope = .ok w ∧ v.Becomes scope w := by
  obtain ⟨references, pointwise, run⟩ := reduceElements_passed reduces
  have collected := references_map_toExpr references
  refine ⟨{ v with sets := references.map Reference.toExpr }, by rw [validate, run], rfl, rfl, ?_, ?_⟩
  · rw [SpriteView.references, collected]
  · rw [SpriteView.references, collected]
    exact pointwise

theorem validate_stopped {v : SpriteView} (stops : Stops scope v.sets failure) :
    v.validate scope = .error failure := by
  rw [validate, reduceElements_stopped stops]

end SpriteView

namespace SpriteGroup

theorem validateViews_passed {views : List SpriteView} (reduces : ∀ v ∈ views, v.Reduces scope) :
    ∃ reduced, List.Forall₂ (SpriteView.Becomes scope) views reduced ∧
      validateViews scope views = (.ok (), reduced) := by
  induction views with
  | nil => exact ⟨[], .nil, rfl⟩
  | cons v rest ih =>
    obtain ⟨here, later⟩ := List.forall_mem_cons.mp reduces
    obtain ⟨w, run, becomes⟩ := SpriteView.validate_passed here
    obtain ⟨others, pointwise, runLater⟩ := ih later
    exact ⟨w :: others, .cons becomes pointwise, by rw [validateViews, run, runLater]⟩

/-- The views before the failing one are reduced. The failing one and those after it stay. -/
theorem validateViews_stopped {before after : List SpriteView} {v : SpriteView}
    (reduces : ∀ u ∈ before, u.Reduces scope) (stops : SpriteView.Stops scope v.sets failure) :
    ∃ reduced, List.Forall₂ (SpriteView.Becomes scope) before reduced ∧
      validateViews scope (before ++ v :: after) = (.error failure, reduced ++ v :: after) := by
  induction before with
  | nil =>
    refine ⟨[], .nil, ?_⟩
    rw [List.nil_append, validateViews, SpriteView.validate_stopped stops]
  | cons u rest ih =>
    obtain ⟨here, later⟩ := List.forall_mem_cons.mp reduces
    obtain ⟨w, run, becomes⟩ := SpriteView.validate_passed here
    obtain ⟨others, pointwise, runLater⟩ := ih later
    refine ⟨w :: others, .cons becomes pointwise, ?_⟩
    rw [List.cons_append, validateViews, run, runLater]
    rfl

theorem names_becomes {views reduced : List SpriteView}
    (pointwise : List.Forall₂ (SpriteView.Becomes scope) views reduced) :
    reduced.map (·.name.name) = views.map (·.name.name) := by
  induction pointwise with
  | nil => rfl
  | cons here _ ih => rw [List.map_cons, List.map_cons, ih, here.name]

theorem references_becomes {views reduced : List SpriteView}
    (pointwise : List.Forall₂ (SpriteView.Becomes scope) views reduced) :
    List.Forall₂ (Expr.ReducesTo scope) (views.flatMap (·.sets))
      (reduced.flatMap SpriteView.references) :=
  List.rel_flatMap pointwise fun _ _ becomes => becomes.elements

/-- The search goes through the views with the names of those before in hand. -/
theorem repeatedView?_eq_none {earlier views : List SpriteView} :
    repeatedView? earlier views = none ↔ (views.map (·.name.name)).Nodup ∧
      ∀ v ∈ views, ∀ u ∈ earlier, u.name.name ≠ v.name.name := by
  induction views generalizing earlier with
  | nil => simp [repeatedView?]
  | cons v rest ih =>
    rw [repeatedView?]
    cases found : earlier.find? fun first => first.name.name == v.name.name with
    | some first =>
      have same : first.name.name = v.name.name := by simpa using List.find?_some found
      have member := List.mem_of_find?_eq_some found
      refine iff_of_false (by simp) fun distinct => ?_
      exact distinct.2 v List.mem_cons_self first member same
    | none =>
      have fresh : ∀ u ∈ earlier, u.name.name ≠ v.name.name := by
        simpa using List.find?_eq_none.mp found
      simp only [ih, List.map_cons, List.nodup_cons, List.mem_append, List.mem_singleton,
        List.forall_mem_cons, List.mem_map]
      constructor
      · rintro ⟨distinct, apart⟩
        refine ⟨⟨?_, distinct⟩, fresh, fun w member u inside => apart w member u (Or.inl inside)⟩
        rintro ⟨w, member, same⟩
        exact apart w member v (Or.inr rfl) same.symm
      · rintro ⟨⟨unseen, distinct⟩, _, apart⟩
        refine ⟨distinct, fun w member u inside => ?_⟩
        rcases inside with old | rfl
        · exact apart w member u old
        · exact fun same => unseen ⟨w, member, same.symm⟩

theorem validate_ok_iff {g : SpriteGroup} {views : List SpriteView}
    (run : validateViews scope g.views = (.ok (), views)) :
    (g.validate scope).1 = .ok () ↔ (views.map (·.name.name)).Nodup := by
  have distinct : repeatedView? [] views = none ↔ (views.map (·.name.name)).Nodup := by
    simp [repeatedView?_eq_none]
  rw [← distinct, validate, run]
  dsimp only
  split
  · rename_i found
    simp [found]
  · rename_i found
    exact iff_of_true rfl found

theorem validate_stopped {g : SpriteGroup} {before after : List SpriteView} {v : SpriteView}
    (split : g.views = before ++ v :: after) (reduces : ∀ u ∈ before, u.Reduces scope)
    (lacking : ¬ v.Reduces scope) :
    ∃ failure reduced, SpriteView.Stops scope v.sets failure ∧
      List.Forall₂ (SpriteView.Becomes scope) before reduced ∧
      g.validate scope = (.error failure, { g with views := reduced ++ v :: after }) := by
  obtain ⟨failure, stops⟩ := SpriteView.exists_stops lacking
  obtain ⟨reduced, pointwise, run⟩ := validateViews_stopped reduces stops
  refine ⟨failure, reduced, stops, pointwise, ?_⟩
  rw [validate, split, run]

/-- Once all elements have come out as references, only a repeated name can stand in the way. -/
theorem validate_reduced {g : SpriteGroup} (reduces : ∀ v ∈ g.views, v.Reduces scope) :
    ((g.validate scope).1 = .ok () ↔ (g.views.map (·.name.name)).Nodup) ∧
      List.Forall₂ (Expr.ReducesTo scope) (g.views.flatMap (·.sets))
        (g.validate scope).2.references := by
  obtain ⟨reduced, pointwise, run⟩ := validateViews_passed reduces
  have passes := validate_ok_iff run
  rw [names_becomes pointwise] at passes
  have views : (g.validate scope).2.views = reduced := by
    rw [(g.validate_views scope).1, run]
  rw [references, views]
  exact ⟨passes, references_becomes pointwise⟩

/-- Validation passes exactly the groups whose elements all reduce to references and whose views have
names of their own, and the references that are collected afterwards are these, one for every element
in order. A failure at an element leaves its view and all later ones as they are, and the group at
the stage that it had. -/
theorem validate_exact (scope : Scope) (g : SpriteGroup) :
    ((g.validate scope).1 = .ok () ↔
      (∀ v ∈ g.views, v.Reduces scope) ∧ (g.views.map (·.name.name)).Nodup) ∧
    ((g.validate scope).1 = .ok () →
      List.Forall₂ (Expr.ReducesTo scope) (g.views.flatMap (·.sets))
        (g.validate scope).2.references) ∧
    ∀ before v after, g.views = before ++ v :: after → (∀ u ∈ before, u.Reduces scope) →
      ¬ v.Reduces scope →
      ∃ failure reduced, SpriteView.Stops scope v.sets failure ∧
        List.Forall₂ (SpriteView.Becomes scope) before reduced ∧
        g.validate scope = (.error failure, { g with views := reduced ++ v :: after }) := by
  by_cases reduces : ∀ v ∈ g.views, v.Reduces scope
  · obtain ⟨passes, collected⟩ := validate_reduced reduces
    exact ⟨passes.trans (and_iff_right reduces).symm, fun _ => collected,
      fun _ _ _ split earlier lacking => validate_stopped split earlier lacking⟩
  · obtain ⟨before, v, after, split, earlier, lacking⟩ := exists_first_without reduces
    obtain ⟨failure, reduced, _, _, run⟩ := validate_stopped split earlier lacking
    have fails : (g.validate scope).1 ≠ .ok () := by simp [run]
    exact ⟨iff_of_false fails fun passes => reduces passes.1, fun passes => absurd passes fails,
      fun _ _ _ split earlier lacking => validate_stopped split earlier lacking⟩

/-- Rails are a block, and a gauge is a number. -/
def station : Scope :=
  ⟨[("gauge", .number 3 none)], fun name => name = "rails"⟩

/-- A view of the given name that lists what has the given names. -/
def listing (name : String) (elements : List String) : SpriteView :=
  ⟨⟨name, none⟩, elements.map fun element => .ident ⟨element, none⟩, none⟩

def junction : SpriteGroup :=
  ⟨⟨"junction", none⟩, [listing "empty" ["rails", "rails"], listing "busy" ["rails", "gauge"],
    listing "closed" ["rails"]], none, {}⟩

/-- The second view lists a number. The first one has been reduced by then, and only its references
are collected. -/
theorem validate_exact_junction :
    (∀ u ∈ [listing "empty" ["rails", "rails"]], u.Reduces station) ∧
      ¬ (listing "busy" ["rails", "gauge"]).Reduces station ∧
      (junction.validate station).1 = .error (.inScript .viewElement none) ∧
      (junction.validate station).2.references.map (·.target.name) = ["rails", "rails"] ∧
      ∃ failure reduced, junction.validate station = (.error failure,
        { junction with views := reduced ++ [listing "busy" ["rails", "gauge"],
            listing "closed" ["rails"]] }) := by
  have first : ∀ u ∈ [listing "empty" ["rails", "rails"]], u.Reduces station := by
    intro u member e inside
    obtain rfl := List.mem_singleton.mp member
    obtain ⟨name, listed, rfl⟩ := List.mem_map.mp inside
    obtain rfl : name = "rails" := by simpa using listed
    exact ⟨⟨⟨"rails", none⟩, [], none⟩, rfl⟩
  have second : ¬ (listing "busy" ["rails", "gauge"]).Reduces station := by
    intro reduces
    obtain ⟨r, same⟩ := reduces (.ident ⟨"gauge", none⟩) (by simp [listing])
    have number : Expr.reduce station (.ident ⟨"gauge", none⟩) = .ok (.number 3 none) := rfl
    rw [Expr.ReducesTo, number] at same
    cases same
  obtain ⟨failure, reduced, _, _, run⟩ :=
    (validate_exact station junction).2.2 _ _ [listing "closed" ["rails"]] rfl first second
  exact ⟨first, second, by decide +kernel, by decide +kernel, failure, reduced, run⟩

end SpriteGroup

end Grf
