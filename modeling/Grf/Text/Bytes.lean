namespace Grf

abbrev Bytes := List UInt8

namespace Text

def tab : UInt8 := 9
def lineFeed : UInt8 := 10
def carriageReturn : UInt8 := 13
def escape : UInt8 := 27
def blank : UInt8 := 32
def caret : UInt8 := 94

/-- The bytes of a text in UTF-8. -/
def bytes (s : String) : Bytes :=
  s.toUTF8.data.toList

/-- Reads the characters that begin after `skip` more bytes. A byte that begins none stands for the
replacement character. -/
def decodeFrom : Nat → Bytes → List Char
  | _, [] => []
  | skip + 1, _ :: rest => decodeFrom skip rest
  | 0, b :: rest =>
    match (b :: rest.take 3).toByteArray.utf8DecodeChar? 0 with
    | some c => c :: decodeFrom (c.utf8Size - 1) rest
    | none => Char.ofNat 0xfffd :: decodeFrom 0 rest

/-- The text that bytes are in UTF-8. -/
def decode (encoded : Bytes) : String :=
  String.ofList (decodeFrom 0 encoded)

end Text

end Grf
