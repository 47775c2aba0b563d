import Grf.Toml.Token

namespace Grf.Toml.Token

/-- Reads the digits of a decimal number, with a point, an exponent and underscores. The answer
tells whether there was a point or an exponent. -/
def scanDecimal (point exponent digit : Bool) (done : List Char) :
    List Char → Option (List Char × Bool × List Char)
  | [] => if digit then some (done.reverse, point || exponent, []) else none
  | c :: rest =>
    if c = '.' then
      if point || !digit || !(rest.head?.any Char.isDigit) then none
      else scanDecimal true exponent digit (c :: done) rest
    else if c = 'e' || c = 'E' then
      match rest with
      | '+' :: rest => scanDecimal point true digit ('+' :: c :: done) rest
      | '-' :: rest => scanDecimal point true digit ('-' :: c :: done) rest
      | rest => scanDecimal point true digit (c :: done) rest
    else if c.isDigit then scanDecimal point exponent true (c :: done) rest
    else if c = '_' then scanDecimal point exponent digit (c :: done) rest
    else if digit then some (done.reverse, point || exponent, c :: rest)
    else none

/-- The digits that a number with a base letter may have. -/
def isBaseDigit (base : Char) (c : Char) : Bool :=
  c = '_' ||
    if base = 'x' then isHexDigit c
    else if base = 'o' then '0' ≤ c && c ≤ '7'
    else c = '0' || c = '1'

def decimal (sign : List Char) (cs : List Char) : Option (Token × List Char) :=
  match scanDecimal false false false [] cs with
  | none => none
  | some (digits, isFloat, rest) =>
    some (if isFloat then .float (sign ++ digits) else .integer (sign ++ digits), rest)

def scanSigned (sign : Char) : List Char → Option (Token × List Char)
  | 'i' :: 'n' :: 'f' :: rest => some (.specialFloat, rest)
  | 'n' :: 'a' :: 'n' :: rest => some (.specialFloat, rest)
  | cs => decimal [sign] cs

/-- A number. A base letter follows a leading zero; no other letter may. -/
def scanNumber : List Char → Option (Token × List Char)
  | '0' :: base :: rest =>
    if base = 'x' || base = 'o' || base = 'b' then
      match rest.span (isBaseDigit base) with
      | ([], _) => none
      | (digits, rest) => some (.integer ('0' :: base :: digits), rest)
    else if base.isAlpha then none
    else decimal [] ('0' :: base :: rest)
  | '+' :: rest => scanSigned '+' rest
  | '-' :: rest => scanSigned '-' rest
  | cs => decimal [] cs

end Grf.Toml.Token
