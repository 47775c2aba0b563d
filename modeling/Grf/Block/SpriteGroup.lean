import Grf.Lifecycle
import Grf.Expr.Reduce
import Grf.Text.Lines

namespace Grf

/-- A named variant of a sprite group: references to sprite sets or groups. -/
structure SpriteView where
  name : Identifier
  sets : List Expr
  position : Option Position

namespace SpriteView

/-- Reduces elements of a view, each of which must come out as a reference. -/
def reduceElements (scope : Scope) : List Expr → Except Failure (List Expr)
  | [] => .ok []
  | e :: rest =>
    match e.reduce scope with
    | .error failure => .error failure
    | .ok (.ref target args position) =>
      match reduceElements scope rest with
      | .error failure => .error failure
      | .ok others => .ok (.ref target args position :: others)
    | .ok _ => .error (.inScript .viewElement e.position)

def validate (v : SpriteView) (scope : Scope) : Except Failure SpriteView :=
  match reduceElements scope v.sets with
  | .error failure => .error failure
  | .ok sets => .ok { v with sets }

def references (v : SpriteView) : List Reference :=
  v.sets.filterMap Reference.ofExpr?

/-- The view as script source. -/
def source (v : SpriteView) : String :=
  v.name.name ++ ": [" ++ Expr.sourceList v.sets ++ "];"

def outline (v : SpriteView) (indent : Nat) : String :=
  Outline.line indent ("Sprite view: " ++ v.name.name) ++
    Outline.line (indent + 2) "Sprite sets:" ++
    Outline.items (indent + 4) (v.sets.map Expr.source)

end SpriteView

/-- A named collection of views. -/
structure SpriteGroup where
  name : Identifier
  views : List SpriteView
  position : Option Position
  lifecycle : Lifecycle := {}

namespace SpriteGroup

def kind : String := "spritegroup"

/-- Validates views in order. The views before the first failure are reduced, the others stay as
they are. -/
def validateViews (scope : Scope) : List SpriteView → Except Failure Unit × List SpriteView
  | [] => (.ok (), [])
  | v :: rest =>
    match v.validate scope with
    | .error failure => (.error failure, v :: rest)
    | .ok reduced =>
      let (result, others) := validateViews scope rest
      (result, reduced :: others)

/-- The first view whose name was used before, with the first view of that name. -/
def repeatedView? (earlier : List SpriteView) : List SpriteView → Option (SpriteView × SpriteView)
  | [] => none
  | v :: rest =>
    match earlier.find? fun first => first.name.name == v.name.name with
    | some first => some (v, first)
    | none => repeatedView? (earlier ++ [v]) rest

/-- Reduces all views and checks that their names differ. -/
def validate (g : SpriteGroup) (scope : Scope) : Except Failure Unit × SpriteGroup :=
  match validateViews scope g.views with
  | (.error failure, views) => (.error failure, { g with views })
  | (.ok _, views) =>
    match repeatedView? [] views with
    | some (v, first) =>
      (.error (.redefinition (.viewTaken v.name.name g.name.name) v.position first.position),
        { g with views })
    | none => (.ok (), { g with views, lifecycle := g.lifecycle.validate })

/-- The references of all views in order, repeated ones included. -/
def references (g : SpriteGroup) : List Reference :=
  g.views.flatMap SpriteView.references

def view? (g : SpriteGroup) (name : String) : Option SpriteView :=
  g.views.find? fun v => v.name.name == name

/-- The group as script source. -/
def source (g : SpriteGroup) : String :=
  "spritegroup " ++ g.name.name ++ " \x7b\n" ++
    String.join (g.views.map fun v => "\t" ++ v.source ++ "\n") ++ "\x7d\n"

def outline (g : SpriteGroup) (indent : Nat) : String :=
  Outline.line indent ("Sprite group: " ++ g.name.name) ++
    String.join (g.views.map fun v => v.outline (indent + 2))

end SpriteGroup

end Grf
