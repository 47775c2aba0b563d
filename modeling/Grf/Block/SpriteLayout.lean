import Grf.Lifecycle
import Grf.Expr.Reduce
import Grf.Text.Lines

namespace Grf

/-- A parameter of a layout sprite. -/
structure LayoutParam where
  name : Identifier
  value : Expr

namespace LayoutParam

/-- A value that cannot be reduced is kept: it may be known only when the layout is encoded. -/
def reduce (p : LayoutParam) (scope : Scope) : LayoutParam :=
  match p.value.reduce scope with
  | .ok value => { p with value }
  | .error _ => p

end LayoutParam

/-- One element of a layout, such as the ground or a building. -/
structure LayoutSprite where
  type : Identifier
  params : List LayoutParam
  position : Option Position

namespace LayoutSprite

def reduce (s : LayoutSprite) (scope : Scope) : LayoutSprite :=
  { s with params := s.params.map (·.reduce scope) }

def references (s : LayoutSprite) : List Reference :=
  s.params.filterMap fun p => Reference.ofExpr? p.value

def param? (s : LayoutSprite) (name : String) : Option Expr :=
  (s.params.find? fun p => p.name.name == name).map (·.value)

/-- The element as script source. -/
def source (s : LayoutSprite) : String :=
  let params := s.params.map fun p => p.name.name ++ ": " ++ p.value.source ++ ";"
  "\t" ++ s.type.name ++ " \x7b\n\t\t" ++ "\n\t\t".intercalate params ++ "\n\t\x7d"

def outline (s : LayoutSprite) (indent : Nat) : String :=
  Outline.line indent ("Tile layout sprite of type: " ++ s.type.name) ++
    Outline.items (indent + 2)
      (s.params.map fun p => p.name.name ++ ": " ++ p.value.source)

end LayoutSprite

/-- A named composition of layout sprites. -/
structure SpriteLayout where
  name : Identifier
  params : List Identifier
  sprites : List LayoutSprite
  position : Option Position
  lifecycle : Lifecycle := {}

namespace SpriteLayout

def kind : String := "spritelayout"

/-- Reduces all values as far as possible. -/
def validate (l : SpriteLayout) (scope : Scope) : SpriteLayout :=
  { l with sprites := l.sprites.map (·.reduce scope), lifecycle := l.lifecycle.validate }

def references (l : SpriteLayout) : List Reference :=
  l.sprites.flatMap LayoutSprite.references

/-- The layout as script source. -/
def source (l : SpriteLayout) : String :=
  "spritelayout " ++ l.name.name ++ " \x7b\n" ++
    "\n".intercalate (l.sprites.map LayoutSprite.source) ++ "\n\x7d\n"

def outline (l : SpriteLayout) (indent : Nat) : String :=
  Outline.line indent ("Sprite layout: " ++ l.name.name) ++
    Outline.line (indent + 2) "Parameters:" ++
    Outline.items (indent + 4) (l.params.map (·.name)) ++
    Outline.line (indent + 2) "Sprites:" ++
    String.join (l.sprites.map fun s => s.outline (indent + 4))

end SpriteLayout

end Grf
