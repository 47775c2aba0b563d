import Grf.Toml.Token

namespace Grf.Toml.Token

/-- The meaning of a letter after a backslash. -/
def escape? : Char → Option Char
  | '\x22' => some '\x22'
  | '\x5c' => some '\x5c'
  | '/' => some '/'
  | 'b' => some '\x08'
  | 'f' => some '\x0c'
  | 'n' => some '\n'
  | 'r' => some '\r'
  | 't' => some '\t'
  | _ => none

/-- Reads up to the closing quotes and resolves escapes; `done` holds the characters so far,
backwards. After a backslash before a blank or a line end, all following ones are skipped. -/
def scanText (close : List Char) (multiline skipping : Bool) (done : List Char) :
    List Char → Option (List Char × List Char)
  | [] => none
  | c :: rest =>
    if skipping && (isBlank c || c = '\n' || c = '\r') then
      scanText close multiline true done rest
    else if close.isPrefixOf (c :: rest) then
      some (done.reverse, (c :: rest).drop close.length)
    else if c = '\x5c' then
      match rest with
      | 'u' :: c1 :: c2 :: c3 :: c4 :: rest =>
        let code := [c1, c2, c3, c4]
        if code.all isHexDigit then
          scanText close multiline false (charOf (digitsValue 16 code) :: done) rest
        else none
      | 'U' :: c1 :: c2 :: c3 :: c4 :: c5 :: c6 :: c7 :: c8 :: rest =>
        let code := [c1, c2, c3, c4, c5, c6, c7, c8]
        if code.all isHexDigit then
          scanText close multiline false (charOf (digitsValue 16 code) :: done) rest
        else none
      | e :: rest =>
        if isBlank e || e = '\n' || e = '\r' then scanText close multiline true done rest
        else
          match escape? e with
          | some meaning => scanText close multiline false (meaning :: done) rest
          | none => none
      | [] => none
    else if c.toNat < 0x20 && c ≠ '\t' && !(multiline && (c = '\n' || c = '\r')) then none
    else scanText close multiline false (c :: done) rest

/-- Reads up to the closing quotes without regard to escapes. -/
def scanLiteral (close done : List Char) : List Char → Option (List Char × List Char)
  | [] => none
  | c :: rest =>
    if close.isPrefixOf (c :: rest) then some (done.reverse, (c :: rest).drop close.length)
    else scanLiteral close (c :: done) rest

/-- A line end right after opening quotes does not belong to the text. -/
def dropLineEnd : List Char → List Char
  | '\n' :: rest => rest
  | '\r' :: '\n' :: rest => rest
  | cs => cs

/-- A text in double or single quotes, or in three of them. -/
def scanQuoted : List Char → Option (List Char × List Char)
  | '\x22' :: '\x22' :: '\x22' :: rest =>
    scanText ['\x22', '\x22', '\x22'] true false [] (dropLineEnd rest)
  | '\x22' :: rest => scanText ['\x22'] false false [] rest
  | '\x27' :: '\x27' :: '\x27' :: rest =>
    scanLiteral ['\x27', '\x27', '\x27'] [] (dropLineEnd rest)
  | '\x27' :: rest => scanLiteral ['\x27'] [] rest
  | _ => none

end Grf.Toml.Token
