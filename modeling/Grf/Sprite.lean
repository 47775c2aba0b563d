import Grf.Expr

namespace Grf

/-- An element of a sprite sequence. -/
inductive Sprite where
  /-- One sprite of raw data. -/
  | real (labels : List Identifier) (params : List Expr) (position : Option Position)
  /-- One colour remapping table. -/
  | recolour (labels : List Identifier) (mapping : List Expr) (position : Option Position)
  /-- All sprites of a template; the label names the first of them. -/
  | use (template : Identifier) (args : List Expr) (label : Option Identifier)
      (position : Option Position)
  /-- An element that no sprite sequence can hold. -/
  | foreign (source : String) (position : Option Position)

namespace Sprite

def position : Sprite → Option Position
  | real _ _ p => p
  | recolour _ _ p => p
  | use _ _ _ p => p
  | foreign _ p => p

/-- Labels in front of an element, each followed by a colon. -/
def labelSource (labels : List Identifier) : String :=
  String.join (labels.map fun label => label.name ++ ": ")

/-- The element as script source. -/
def source : Sprite → String
  | real labels params _ => labelSource labels ++ "[" ++ Expr.sourceList params ++ "]"
  | recolour labels mapping _ =>
    labelSource labels ++ "recolour_sprite \x7b" ++ Expr.sourceList mapping ++ "\x7d"
  | use template args label _ =>
    labelSource label.toList ++ template.name ++ "(" ++ Expr.sourceList args ++ ")"
  | foreign source _ => source

end Sprite

end Grf
