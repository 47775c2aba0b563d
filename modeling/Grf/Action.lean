import Grf.Failure
import Grf.Text.Bytes

namespace Grf

/-- A binary record of the output: the chunks it writes one after the other, the failure it may
end with, and the number of bytes it says it has. -/
structure Action where
  size : Int64
  chunks : List Bytes
  failure : Option Failure := none

namespace Action

/-- A record whose bytes are known. -/
def raw (bytes : Bytes) : Action :=
  ⟨Int64.ofNat bytes.length, [bytes], none⟩

/-- All bytes that the record writes if nothing goes wrong. -/
def bytes (a : Action) : Bytes :=
  a.chunks.flatten

/-- The sizes of a list of records, added up as words. -/
def totalSize (actions : List Action) : Int64 :=
  (actions.map (·.size)).sum

end Action

/-- A place for bytes. How many bytes of a chunk it takes, and whether it fails on that chunk, is told
from the chunk and from all those that it was given before. -/
structure Writer where
  accept : List Bytes → Bytes → Nat × Option Failure
  given : List Bytes := []
  stored : Bytes := []

namespace Writer

/-- A writer with room for a limited number of bytes. A chunk that does not fit is taken as far as it
fits; unless the writer is `short` and keeps silent, that is a failure. -/
def limited (limit : Option Nat) (short : Bool) : Writer where
  accept given chunk :=
    match limit with
    | none => (chunk.length, none)
    | some limit =>
      let count := min chunk.length (limit - given.flatten.length)
      (count, if count < chunk.length ∧ !short then some (.external "writer full") else none)

/-- Writes a chunk; the number tells how many of its bytes were stored. -/
def write (w : Writer) (chunk : Bytes) : Writer × Nat × Option Failure :=
  let (count, failure) := w.accept w.given chunk
  ({ w with given := w.given ++ [chunk], stored := w.stored ++ chunk.take count },
    min count chunk.length, failure)

/-- Writes chunks up to the first failure; the number tells how many bytes were stored. -/
def writeChunks (w : Writer) : List Bytes → Writer × Nat × Option Failure
  | [] => (w, 0, none)
  | chunk :: rest =>
    match w.write chunk with
    | (after, count, some failure) => (after, count, some failure)
    | (after, count, none) =>
      let (last, more, failure) := after.writeChunks rest
      (last, count + more, failure)

/-- Writes one record. -/
def writeAction (w : Writer) (a : Action) : Writer × Nat × Option Failure :=
  match w.writeChunks a.chunks with
  | (after, count, some failure) => (after, count, some failure)
  | (after, count, none) => (after, count, a.failure)

/-- Writes records, the first of them number `index`, and checks that each one writes as many
bytes as it said. -/
def writeFrom (w : Writer) (index : Nat) : List Action → Writer × Except Failure Unit
  | [] => (w, .ok ())
  | a :: rest =>
    match w.writeAction a with
    | (after, _, some failure) =>
      (after, .error (.within ("writing action " ++ toString index) failure))
    | (after, count, none) =>
      if (count : Int) = a.size.toInt then after.writeFrom (index + 1) rest
      else (after, .error (.sizeMismatch index count a.size))

/-- Writes a list of records in order. -/
def writeAll (w : Writer) (actions : List Action) : Writer × Except Failure Unit :=
  w.writeFrom 0 actions

end Writer

end Grf
