namespace Grf.Toml

/-- The smallest parts of a settings file. -/
inductive Token where
  /-- A table header, as it stands between its brackets. -/
  | header (path : List Char)
  /-- A header between double brackets, which starts one more table of a list. -/
  | listHeader (path : List Char)
  /-- A key with its quotes and dots; escapes inside quotes are resolved. -/
  | key (path : List Char)
  | equals
  | comma
  | openBracket
  | closeBracket
  | openBrace
  | closeBrace
  | text (value : String)
  | boolean (value : Bool)
  | integer (digits : List Char)
  | float (digits : List Char)
  /-- An infinite or undefined number. -/
  | specialFloat
  | date
  | time
  /-- The distance of a time from universal time. -/
  | offset

namespace Token

def isBlank (c : Char) : Bool :=
  c = ' ' || c = '\t'

/-- The characters of a key that needs no quotes. -/
def isBare (c : Char) : Bool :=
  c.isAlphanum || c = '_' || c = '-'

def isHexDigit (c : Char) : Bool :=
  c.isDigit || ('a' ≤ c && c ≤ 'f') || ('A' ≤ c && c ≤ 'F')

/-- The number that digits of a base up to sixteen stand for. -/
def digitsValue (base : Nat) (digits : List Char) : Nat :=
  digits.foldl
    (fun n c =>
      let digit :=
        if c.isDigit then c.toNat - '0'.toNat
        else if c.isLower then c.toNat - 'a'.toNat + 10
        else c.toNat - 'A'.toNat + 10
      base * n + digit)
    0

/-- The character with a code point, or the replacement character if there is none. -/
def charOf (code : Nat) : Char :=
  if code.isValidChar then Char.ofNat code else Char.ofNat 0xfffd

end Token

end Grf.Toml
