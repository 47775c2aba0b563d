import Grf.Toml.Token
import Grf.Toml.Value

namespace Grf.Toml

/-- Whether every underscore stands between two digits. -/
def hasGoodUnderscores (isDigit : Char → Bool) (after : Bool) : List Char → Bool
  | [] => true
  | c :: rest =>
    if c = '_' then after && !rest.isEmpty && hasGoodUnderscores isDigit false rest
    else hasGoodUnderscores isDigit (isDigit c) rest

/-- One more than the largest signed word. -/
def signedLimit : Nat := 0x8000000000000000

/-- The value of an integer of at most 64 bits, which may be one of the large unsigned ones if it
has no sign. A leading zero before two more characters announces a base. -/
def integerValue (digits : List Char) : Option Value :=
  let cleaned := digits.filter (· ≠ '_')
  let isUnsigned (n : Nat) : Option Value := if n < UInt64.size then some (.integer n) else none
  match cleaned with
  | '0' :: 'x' :: value =>
    if hasGoodUnderscores Token.isHexDigit false digits && !value.isEmpty then
      isUnsigned (Token.digitsValue 16 value)
    else none
  | '0' :: 'o' :: value =>
    if hasGoodUnderscores Char.isDigit false digits && !value.isEmpty then
      isUnsigned (Token.digitsValue 8 value)
    else none
  | '0' :: 'b' :: value =>
    if hasGoodUnderscores Char.isDigit false digits && !value.isEmpty then
      isUnsigned (Token.digitsValue 2 value)
    else none
  | '0' :: _ :: _ :: _ => none
  | sign :: value =>
    if !hasGoodUnderscores Char.isDigit false digits then none
    else if sign = '-' then
      let n := Token.digitsValue 10 value
      if n ≤ signedLimit then some (.integer (-n)) else none
    else if sign = '+' then
      let n := Token.digitsValue 10 value
      if n < signedLimit then some (.integer n) else none
    else isUnsigned (Token.digitsValue 10 cleaned)
  | [] => none

/-- A decimal number: the digits before and after the point, how many of them stand after it, and
the power of ten to multiply with. -/
structure Decimal where
  digits : List Char
  places : Nat
  exponent : Int

namespace Decimal

/-- The value of the digits of an exponent. Once it has reached ten thousand, the remaining ones do
not count. -/
def exponentValue (digits : List Char) : Nat :=
  digits.foldl (fun n c => if n < 10000 then 10 * n + Token.digitsValue 10 [c] else n) 0

/-- An exponent with its sign. -/
def exponent? (cs : List Char) : Option Int :=
  let (isNegative, digits) :=
    match cs with
    | '+' :: digits => (false, digits)
    | '-' :: digits => (true, digits)
    | digits => (false, digits)
  if digits.isEmpty || !digits.all Char.isDigit then none
  else
    let n : Int := exponentValue digits
    some (if isNegative then -n else n)

/-- The number that unsigned characters form. There is a digit before the exponent. -/
def ofChars? (cs : List Char) : Option Decimal :=
  let (whole, rest) := cs.span Char.isDigit
  let (fraction, rest) :=
    match rest with
    | '.' :: rest => rest.span Char.isDigit
    | rest => ([], rest)
  let digits := whole ++ fraction
  if digits.isEmpty then none
  else
    match rest with
    | [] => some ⟨digits, fraction.length, 0⟩
    | _ :: exponent => (exponent? exponent).map fun n => ⟨digits, fraction.length, n⟩

/-- The least number that is nearer to two to the power of 1024 than to the largest double, or as
near. -/
def bound : Nat := Nat.pow 2 1024 - Nat.pow 2 970

/-- Whether there is no finite double next to the number. The bound has 309 digits, so only a number
with as many before its point needs to be compared. -/
def isTooLarge (d : Decimal) : Bool :=
  let significant := d.digits.dropWhile (· = '0')
  let shift := d.exponent - d.places
  let size := shift + significant.length
  if significant.isEmpty || size < 309 then false
  else if 309 < size then true
  else
    let mantissa := Token.digitsValue 10 significant
    if 0 ≤ shift then bound ≤ mantissa * Nat.pow 10 shift.toNat
    else bound * Nat.pow 10 (-shift).toNat ≤ mantissa

end Decimal

/-- Whether the characters form a fractional number that is not too large. -/
def isFloat (digits : List Char) : Bool :=
  let unsigned := (digits.filter (· ≠ '_')).dropWhile fun c => c = '+' || c = '-'
  hasGoodUnderscores Char.isDigit false digits &&
    (Decimal.ofChars? unsigned).any fun d => !d.isTooLarge

end Grf.Toml
