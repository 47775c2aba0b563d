import Grf.Feature
import Grf.Position

namespace Grf

/-- The kinds of errors in a script. -/
inductive ErrorKind where
  /-- A wrong number or type of parameters. -/
  | structural
  /-- A name that is taken already. -/
  | duplicate
  /-- Something that contains itself. -/
  | selfInclusion
  /-- A name that stands for nothing. -/
  | unknownReference
  /-- A name that stands for the wrong kind of thing. -/
  | referenceKind
  /-- A limit of the game engine. -/
  | capacity
  /-- A kind that only a collaborator knows. -/
  | unlisted (code : Int64)
deriving DecidableEq

namespace ErrorKind

def ofCode (code : Int64) : ErrorKind :=
  if code = 0 then structural
  else if code = 1 then duplicate
  else if code = 2 then selfInclusion
  else if code = 3 then unknownReference
  else if code = 4 then referenceKind
  else if code = 5 then capacity
  else unlisted code

def code : ErrorKind → Int64
  | structural => 0
  | duplicate => 1
  | selfInclusion => 2
  | unknownReference => 3
  | referenceKind => 4
  | capacity => 5
  | unlisted code => code

def name : ErrorKind → String
  | structural => "Structure"
  | duplicate => "Definition"
  | selfInclusion => "Inclusion"
  | unknownReference => "Name"
  | referenceKind => "Reference"
  | capacity => "Capacity"
  | unlisted code => "ErrorKind(" ++ toString code ++ ")"

end ErrorKind

/-- What is wrong with a script. -/
inductive Cause where
  | constantLoop (name : String)
  | unknownIdentifier (name : String)
  | operands (symbol : String)
  | unknownTemplate (name : String)
  | foreignSprite (source : String)
  | labelTaken (name : String)
  | templateLoop (name : String)
  | templateTaken (name : String) (first : Option Position)
  | setParameterCount (count : Nat)
  | setName
  | setFile
  | viewElement
  | viewTaken (view group : String)
  | blockTaken (name : String)
  | unknownBlock (name : String)
  | unreferenceable (name kind : String)
  | blockLoop (kind name : String)
  | unlistedFeature (feature : Feature)
  | idsExhausted (kind name : String) (feature : Feature)
  /-- An error raised outside this library. -/
  | raised (kind : ErrorKind) (message : String)
deriving DecidableEq

namespace Cause

def kind : Cause → ErrorKind
  | constantLoop _ => .selfInclusion
  | unknownIdentifier _ => .unknownReference
  | operands _ => .structural
  | unknownTemplate _ => .unknownReference
  | foreignSprite _ => .structural
  | labelTaken _ => .duplicate
  | templateLoop _ => .selfInclusion
  | templateTaken _ _ => .duplicate
  | setParameterCount _ => .structural
  | setName => .structural
  | setFile => .structural
  | viewElement => .referenceKind
  | viewTaken _ _ => .duplicate
  | blockTaken _ => .duplicate
  | unknownBlock _ => .unknownReference
  | unreferenceable _ _ => .referenceKind
  | blockLoop _ _ => .selfInclusion
  | unlistedFeature _ => .structural
  | idsExhausted _ _ _ => .capacity
  | raised kind _ => kind

def message : Cause → String
  | constantLoop name => "Constant '" ++ name ++ "' refers to itself"
  | unknownIdentifier name => "Unrecognized identifier '" ++ name ++ "' encountered"
  | operands symbol =>
    "Binary operator '" ++ symbol ++ "' requires two compile-time constant numbers"
  | unknownTemplate name => "Encountered unknown template identifier: " ++ name
  | foreignSprite source => "Unexpected element in sprite list: " ++ source
  | labelTaken name => "Duplicate label encountered; '" ++ name ++ "' already exists."
  | templateLoop name => "Sprite template '" ++ name ++ "' includes itself."
  | templateTaken name first =>
    "Template named '" ++ name ++ "' is already defined, first definition at " ++
      Position.describe first
  | setParameterCount count =>
    "Spriteset requires 1 or 2 parameters, encountered " ++ toString count
  | setName => "Spriteset parameter 1 'name' should be an identifier"
  | setFile => "Spriteset-block parameter 2 'file' must be a string literal"
  | viewElement => "All items in a spritegroup must be spritegroup references"
  | viewTaken view group =>
    "Sprite view '" ++ view ++ "' is defined more than once in spritegroup '" ++ group ++ "'"
  | blockTaken name => "Block with name '" ++ name ++ "' has already been defined"
  | unknownBlock name => "Unknown spritegroup '" ++ name ++ "'"
  | unreferenceable name kind =>
    "'" ++ name ++ "' is a " ++ kind ++
      ": only spritesets and spritegroups can be referenced here"
  | blockLoop kind name => kind ++ " '" ++ name ++ "' references itself"
  | unlistedFeature feature => "Unknown feature: " ++ feature.name
  | idsExhausted kind name feature =>
    "Unable to allocate ID for " ++ kind ++ " '" ++ name ++ "' (" ++ feature.name ++
      "), try reducing the number of used blocks"
  | raised _ message => message

end Cause

end Grf
