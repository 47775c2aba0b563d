import Grf.Toml.Token.Moment
import Grf.Toml.Token.Number
import Grf.Toml.Token.Quoted

namespace Grf.Toml.Token

/-- What remains after a comment; the end of the line remains too. -/
def dropComment : List Char → List Char
  | [] => []
  | '\n' :: rest => '\n' :: rest
  | '\r' :: '\n' :: rest => '\r' :: '\n' :: rest
  | _ :: rest => dropComment rest

/-- Reads a key up to the equals sign, with at most `fuel` steps; `done` holds the key so far,
backwards. Blanks end the key unless a dot follows them. -/
def scanKey : Nat → List Char → List Char → Option (List Char × List Char)
  | 0, _, _ => none
  | _ + 1, done, [] => some (done.reverse, [])
  | fuel + 1, done, c :: rest =>
    if c = '=' then some (done.reverse, c :: rest)
    else if c = '\x22' then
      match scanText ['\x22'] true false [] rest with
      | none => none
      | some (part, rest) => scanKey fuel ('\x22' :: part.reverse ++ '\x22' :: done) rest
    else if c = '\x27' then
      match scanLiteral ['\x27'] [] rest with
      | none => none
      | some (part, rest) => scanKey fuel ('\x27' :: part.reverse ++ '\x27' :: done) rest
    else if isBlank c then
      match rest.dropWhile isBlank with
      | '.' :: rest =>
        let (gap, rest) := rest.span isBlank
        scanKey fuel (gap.reverse ++ '.' :: ' ' :: done) rest
      | rest => some (done.reverse, rest)
    else if c = '.' || isBare c then scanKey fuel (c :: done) rest
    else none

/-- Reads a header up to its closing bracket. -/
def scanHeader (done : List Char) : List Char → Option (List Char × List Char)
  | [] => none
  | '[' :: _ => none
  | ']' :: rest => some (done.reverse, rest)
  | c :: rest => scanHeader (c :: done) rest

/-- A value that is no text and opens nothing. -/
def scanPlain : List Char → Option (Token × List Char)
  | 't' :: 'r' :: 'u' :: 'e' :: rest => some (.boolean true, rest)
  | 'f' :: 'a' :: 'l' :: 's' :: 'e' :: rest => some (.boolean false, rest)
  | 'i' :: 'n' :: 'f' :: rest => some (.specialFloat, rest)
  | 'n' :: 'a' :: 'n' :: rest => some (.specialFloat, rest)
  | c :: rest => if c.isDigit || c = '+' || c = '-' then scanNumber (c :: rest) else none
  | [] => none

/-- Cuts a text into tokens with at most `fuel` steps. At the start of a line or of an inline
table (`atKey`) a key is expected, and otherwise a value. `nesting` holds the brackets and braces
that are open, the innermost first. -/
def scanFrom : Nat → Bool → List Char → List Char → Option (List Token)
  | 0, _, _, _ => none
  | _ + 1, _, _, [] => some []
  | fuel + 1, atKey, nesting, c :: rest =>
    if isBlank c then scanFrom fuel atKey nesting rest
    else if c = '#' then scanFrom fuel atKey nesting (dropComment rest)
    else if c = '\n' || c = '\r' then
      scanFrom fuel (atKey || nesting.head? ≠ some '[') nesting rest
    else if c = '=' then (scanFrom fuel false nesting rest).map (equals :: ·)
    else if c = '\x7d' then
      match nesting with
      | '\x7b' :: outer => (scanFrom fuel false outer rest).map (closeBrace :: ·)
      | _ => none
    else if atKey then
      if c = '[' then
        match rest with
        | '[' :: rest =>
          match scanHeader [] rest with
          | some (first :: path, ']' :: rest) =>
            (scanFrom fuel true nesting rest).map (listHeader (first :: path) :: ·)
          | _ => none
        | rest =>
          match scanHeader [] rest with
          | none => none
          | some ([], rest) =>
            (scanFrom fuel true nesting rest).map ([openBracket, closeBracket] ++ ·)
          | some (path, rest) => (scanFrom fuel true nesting rest).map (header path :: ·)
      else
        match scanKey (rest.length + 2) [] (c :: rest) with
        | none => none
        | some (path, rest) => (scanFrom fuel true nesting rest).map (key path :: ·)
    else if c = '[' then (scanFrom fuel false ('[' :: nesting) rest).map (openBracket :: ·)
    else if c = ']' then
      match nesting with
      | '[' :: outer => (scanFrom fuel false outer rest).map (closeBracket :: ·)
      | _ => none
    else if c = '\x7b' then (scanFrom fuel true (c :: nesting) rest).map (openBrace :: ·)
    else if c = ',' then
      (scanFrom fuel (nesting.head? = some '\x7b') nesting rest).map (comma :: ·)
    else if c = '\x22' || c = '\x27' then
      match scanQuoted (c :: rest) with
      | none => none
      | some (value, rest) =>
        (scanFrom fuel false nesting rest).map (text (String.ofList value) :: ·)
    else if isTimeStart (c :: rest) || isDateStart (c :: rest) then
      match scanMoment (c :: rest) with
      | none => none
      | some (tokens, rest) => (scanFrom fuel false nesting rest).map (tokens ++ ·)
    else
      match scanPlain (c :: rest) with
      | none => none
      | some (token, rest) => (scanFrom fuel false nesting rest).map (token :: ·)

/-- The tokens of a settings file. A mark of the byte order at its start does not count. Each step
reads a character, so there are never more steps than characters. -/
def scan (contents : List Char) : Option (List Token) :=
  let cs := if contents.head? = some (Char.ofNat 0xfeff) then contents.drop 1 else contents
  scanFrom (cs.length + 1) true [] cs

end Grf.Toml.Token
