import Grf.Lifecycle
import Grf.Expr.Reduce
import Grf.Text.Lines
import Grf.Template

namespace Grf

/-- A named sequence of sprites, which may come from a graphics file. -/
structure SpriteSet where
  name : Identifier
  file : Option String
  sprites : List Sprite
  position : Option Position
  /-- Labels and number of sprites, known after validation. -/
  contents : Resolved := {}
  /-- The number given to the set in the output, negative before that. -/
  block : Int64 := -1
  lifecycle : Lifecycle := {}

namespace SpriteSet

def kind : String := "spriteset"

/-- The file that a parameter names, which must reduce to a text. -/
def fileOf (scope : Scope) (e : Expr) : Except Failure String :=
  match e.reduce scope with
  | .error failure => .error failure
  | .ok (.text value _) => .ok value
  | .ok _ => .error (.inScript .setFile e.position)

/-- A set from the parameters of its declaration: its name and, if there is a second one, its
file. -/
def ofParameters (scope : Scope) (params : List Expr) (sprites : List Sprite)
    (position : Option Position) : Except Failure SpriteSet :=
  match params with
  | [.ident name] => .ok { name, file := none, sprites, position }
  | [.ident name, file] =>
    match fileOf scope file with
    | .error failure => .error failure
    | .ok path => .ok { name, file := some path, sprites, position }
  | [e] | [e, _] => .error (.inScript .setName e.position)
  | _ => .error (.inScript (.setParameterCount params.length) position)

/-- Finds the labels of the set. -/
def validate (s : SpriteSet) (library : TemplateLibrary) : Except Failure SpriteSet :=
  match library.resolve s.sprites with
  | .error failure => .error failure
  | .ok contents => .ok { s with contents, lifecycle := s.lifecycle.validate }

def hasBlock (s : SpriteSet) : Bool :=
  0 ≤ s.block

/-- The set as script source. -/
def source (s : SpriteSet) : String :=
  let file :=
    match s.file with
    | none => ""
    | some path => ", " ++ Text.quote path
  "spriteset(" ++ s.name.name ++ file ++ ") \x7b\n" ++
    String.join (s.sprites.map fun sprite => "\t" ++ sprite.source ++ "\n") ++ "\x7d\n"

def outline (s : SpriteSet) (indent : Nat) : String :=
  Outline.line indent ("Sprite set: " ++ s.name.name) ++
    Outline.line (indent + 2) ("Source:   " ++ s.file.getD "None") ++
    Outline.line (indent + 2) "Sprites:" ++
    Outline.items (indent + 4) (s.sprites.map Sprite.source)

end SpriteSet

end Grf
