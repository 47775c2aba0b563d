import Grf.Toml.Number
import Grf.Toml.Token.Scan

namespace Grf.Toml

/-- The keys of a dotted path, with at most `fuel` steps. Blanks may stand around keys. -/
def splitPath : Nat → List Char → Option (List String)
  | 0, _ => none
  | fuel + 1, cs =>
    match cs.dropWhile Token.isBlank with
    | [] => some []
    | c :: rest =>
      if Token.isBare c then
        let (name, after) := (c :: rest).span Token.isBare
        match after with
        | [] => some [String.ofList name]
        | d :: tail =>
          if d = '.' then (splitPath fuel after).map (String.ofList name :: ·)
          else if Token.isBlank d then
            match tail.dropWhile Token.isBlank with
            | [] => some [String.ofList name]
            | '.' :: tail => (splitPath fuel ('.' :: tail)).map (String.ofList name :: ·)
            | _ => none
          else none
      else if c = '\x22' || c = '\x27' then
        match rest.span (· ≠ c) with
        | (_, []) => none
        | (name, _ :: tail) => (splitPath fuel tail).map (String.ofList name :: ·)
      else if c = '.' then
        match rest with
        | [] => none
        | d :: _ =>
          if Token.isBare d || d = '\x22' || d = '\x27' || d = ' ' then splitPath fuel rest
          else none
      else none

/-- The keys of a path and its last key. -/
def path? (cs : List Char) : Option (List String × String) :=
  match splitPath (cs.length + 1) cs with
  | none => none
  | some keys => keys.getLast?.map fun last => (keys.dropLast, last)

mutual

/-- Reads a value from the front of the tokens, with at most `fuel` steps. -/
def readValue : Nat → List Token → Option (Value × List Token)
  | 0, _ => none
  | _ + 1, .text value :: rest => some (.text value, rest)
  | _ + 1, .boolean value :: rest => some (.boolean value, rest)
  | _ + 1, .integer digits :: rest => (integerValue digits).map (·, rest)
  | _ + 1, .float digits :: rest => if isFloat digits then some (.float, rest) else none
  | _ + 1, .specialFloat :: rest => some (.float, rest)
  | _ + 1, .date :: .time :: .offset :: rest => some (.moment, rest)
  | _ + 1, .date :: .time :: rest => some (.moment, rest)
  | _ + 1, .date :: rest => some (.moment, rest)
  | _ + 1, .time :: rest => some (.moment, rest)
  | fuel + 1, .openBracket :: rest => readArray fuel [] rest
  | fuel + 1, .openBrace :: rest => readTable fuel .empty none rest
  | _ + 1, _ => none

/-- Reads the items of an array; those before are in `done`, backwards. An array of tables is a
list of tables. -/
def readArray : Nat → List Value → List Token → Option (Value × List Token)
  | 0, _, _ => none
  | _ + 1, done, .closeBracket :: rest =>
    some (if !done.isEmpty && done.all Value.isTable then .tables done.reverse else .array, rest)
  | fuel + 1, done, tokens =>
    match readValue fuel tokens with
    | some (value, .comma :: rest) => readArray fuel (value :: done) rest
    | some (value, .closeBracket :: rest) => readArray fuel (value :: done) (.closeBracket :: rest)
    | _ => none

/-- Reads the entries of an inline table. `last` tells whether the token before was a comma; at
the start it is missing. -/
def readTable : Nat → Value → Option Bool → List Token → Option (Value × List Token)
  | 0, _, _, _ => none
  | _ + 1, done, last, .closeBrace :: rest =>
    match last, done with
    | some true, _ => none
    | _, .table _ entries => some (.table true entries, rest)
    | _, _ => none
  | fuel + 1, done, last, .comma :: rest =>
    if last = some true then none else readTable fuel done (some true) rest
  | fuel + 1, done, last, .key path :: .equals :: rest =>
    if last = some false then none
    else
      match splitPath (path.length + 1) path, readValue fuel rest with
      | some (key :: keys), some (value, rest) =>
        readTable fuel (done.put value (key :: keys)) (some false) rest
      | _, _ => none
  | _ + 1, _, _, _ => none

end

/-- A settings file that is read up to some point. -/
structure Document where
  root : Value := .empty
  /-- The table that keys are put into. -/
  current : List String := []
  /-- The headers that were met. -/
  headers : List (List Char) := []

namespace Document

/-- Goes on to the table of a header. -/
def openTable (d : Document) (path : List Char) : Option Document :=
  if path ∈ d.headers then none
  else
    match splitPath (path.length + 1) path with
    | none | some [] => none
    | some keys =>
      match d.root.open? keys with
      | none => none
      | some root =>
        if (root.get? keys).any Value.isInline then none
        else some ⟨root, keys, d.headers ++ [path]⟩

/-- Goes on to a new table of a list. The headers inside the list can then be used again. -/
def openListItem (d : Document) (path : List Char) : Option Document :=
  match path? path with
  | none => none
  | some (keys, key) =>
    match d.root.append? (keys ++ [key]) with
    | none => none
    | some root =>
      let others := d.headers.filter fun header => !(path ++ ['.']).isPrefixOf header
      some ⟨root, keys ++ [key], others ++ [path]⟩

/-- Puts a value under a key of the current table. -/
def assign (d : Document) (path : List Char) (value : Value) : Option Document :=
  match path? path with
  | none => none
  | some (keys, key) =>
    let keys := d.current ++ keys
    match (d.root.open? keys).bind fun root => root.assign? key value keys with
    | none => none
    | some root => some { d with root }

/-- Reads all tokens, with at most `fuel` steps. -/
def read : Nat → Document → List Token → Option Document
  | 0, _, _ => none
  | _ + 1, d, [] => some d
  | fuel + 1, d, .header path :: rest => (d.openTable path).bind fun d => read fuel d rest
  | fuel + 1, d, .listHeader path :: rest => (d.openListItem path).bind fun d => read fuel d rest
  | fuel + 1, d, .key path :: .equals :: rest =>
    match readValue (rest.length + 1) rest with
    | none => none
    | some (value, rest) => (d.assign path value).bind fun d => read fuel d rest
  | _ + 1, _, _ => none

end Document

/-- The tables of a settings file, or nothing if it is malformed. -/
def parse? (contents : String) : Option Value :=
  match Token.scan contents.toList with
  | none => none
  | some tokens => (Document.read (tokens.length + 1) {} tokens).map (·.root)

end Grf.Toml
