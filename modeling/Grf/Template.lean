import Grf.Label
import Grf.Sprite
import Grf.Text.Lines

namespace Grf

/-- The labels of a sprite sequence and the number of its sprites. -/
structure Resolved where
  labels : LabelTable := {}
  count : Int64 := 0

/-- A named sequence of sprites that other sequences can use. -/
structure Template where
  name : Identifier
  params : List Identifier
  sprites : List Sprite
  position : Option Position

namespace Template

/-- The template as script source. -/
def source (t : Template) : String :=
  "template " ++ t.name.name ++ "(" ++ ", ".intercalate (t.params.map (·.name)) ++ ") \x7b\n" ++
    String.join (t.sprites.map fun sprite => "\t" ++ sprite.source ++ "\n") ++ "\x7d\n"

def outline (t : Template) (indent : Nat) : String :=
  Outline.line indent ("Template declaration: " ++ t.name.name) ++
    Outline.line (indent + 2) "Parameters:" ++
    Outline.items (indent + 4) (t.params.map (·.name)) ++
    Outline.line (indent + 2) "Sprites:" ++
    Outline.items (indent + 4) (t.sprites.map Sprite.source)

end Template

/-- The registered templates, oldest first, each with its labels and its number of sprites. -/
structure TemplateLibrary where
  entries : List (Template × Resolved) := []

namespace TemplateLibrary

def find? (library : TemplateLibrary) (name : String) : Option (Template × Resolved) :=
  library.entries.find? fun entry => entry.1.name.name == name

/-- The labels and the number of sprites of one element, counted from its own start. -/
def resolveSprite (library : TemplateLibrary) : Sprite → Except Failure Resolved
  | .real labels _ _ | .recolour labels _ _ =>
    match LabelTable.ofIdentifiers labels with
    | .error failure => .error failure
    | .ok table => .ok ⟨table, 1⟩
  | .use template _ label _ =>
    match library.find? template.name with
    | none => .error (.inScript (.unknownTemplate template.name) template.position)
    | some (_, contents) =>
      match label with
      | none => .ok contents
      | some id =>
        match contents.labels.add ⟨id.name, 0, id.position⟩ with
        | .error failure => .error failure
        | .ok table => .ok ⟨table, contents.count⟩
  | .foreign source position => .error (.inScript (.foreignSprite source) position)

/-- Goes on with `sprites` after a sequence that is resolved already. -/
def resolveAfter (library : TemplateLibrary) : Resolved → List Sprite → Except Failure Resolved
  | done, [] => .ok done
  | done, sprite :: rest =>
    match library.resolveSprite sprite with
    | .error failure => .error failure
    | .ok part =>
      match done.labels.merge part.labels done.count with
      | .error failure => .error failure
      | .ok table => library.resolveAfter ⟨table, done.count + part.count⟩ rest

/-- The labels and the number of sprites of a sequence. The labels of each element are shifted
past all the sprites before it. -/
def resolve (library : TemplateLibrary) (sprites : List Sprite) : Except Failure Resolved :=
  library.resolveAfter {} sprites

/-- The first element, in order, that uses the template itself or an unknown one. -/
def usageFailure? (library : TemplateLibrary) (t : Template) : List Sprite → Option Failure
  | [] => none
  | .use template _ _ _ :: rest =>
    if template.name = t.name.name then
      some (.inScript (.templateLoop template.name) t.position)
    else if (library.find? template.name).isNone then
      some (.inScript (.unknownTemplate template.name) template.position)
    else library.usageFailure? t rest
  | _ :: rest => library.usageFailure? t rest

/-- Registers a template. All templates that it uses must be registered and its name must be
free, so no template can contain itself. -/
def register (library : TemplateLibrary) (t : Template) :
    Except Failure (TemplateLibrary × Resolved) :=
  match library.usageFailure? t t.sprites with
  | some failure => .error failure
  | none =>
    match library.find? t.name.name with
    | some (first, _) =>
      .error (.redefinition (.templateTaken t.name.name first.position) t.position first.position)
    | none =>
      match library.resolve t.sprites with
      | .error failure => .error failure
      | .ok contents => .ok (⟨library.entries ++ [(t, contents)]⟩, contents)

end TemplateLibrary

end Grf
