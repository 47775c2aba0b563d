import Grf.Text.Printable

namespace Grf.Text

/-- The last `width` hexadecimal digits of `n`, in lower case. -/
def hex : Nat → Nat → List Char
  | 0, _ => []
  | width + 1, n => hex width (n / 16) ++ [Nat.digitChar (n % 16)]

/-- The same digits in upper case. -/
def upperHex (width n : Nat) : List Char :=
  (hex width n).map Char.toUpper

/-- How one character is written inside a quoted text. Quotes and backslashes are escaped,
printable characters stand for themselves, and all others are named by a letter or by their
code point in the shortest of three hexadecimal forms. -/
def quoteChar (c : Char) : List Char :=
  if c = '\x22' ∨ c = '\x5c' then ['\x5c', c]
  else if isPrintable c then [c]
  else match c.toNat with
    | 0x07 => ['\x5c', 'a']
    | 0x08 => ['\x5c', 'b']
    | 0x0c => ['\x5c', 'f']
    | 0x0a => ['\x5c', 'n']
    | 0x0d => ['\x5c', 'r']
    | 0x09 => ['\x5c', 't']
    | 0x0b => ['\x5c', 'v']
    | n =>
      if n < 0x80 then '\x5c' :: 'x' :: hex 2 n
      else if n < 0x10000 then '\x5c' :: 'u' :: hex 4 n
      else '\x5c' :: 'U' :: hex 8 n

/-- The text between double quotes, with everything escaped that could not be read back. -/
def quote (s : String) : String :=
  String.ofList ('\x22' :: s.toList.flatMap quoteChar ++ ['\x22'])

end Grf.Text
