import Grf.Text.Bytes
import Mathlib.Data.String.Basic

namespace Grf.Text

theorem bytes_eq (s : String) : bytes s = s.toList.flatMap String.utf8EncodeChar := by
  have encoded : s.toUTF8 = s.toList.utf8Encode := String.utf8Encode_toList.symm
  rw [bytes, encoded, List.utf8Encode, List.toList_data_toByteArray]

/-- A number without its last `k` groups of six bits. -/
def leading : Nat → Nat → Nat
  | 0, n => n
  | k + 1, n => leading k (n / 64)

/-- A number as a first byte, which is counted from `first`, and `k` bytes with six bits each. -/
def sequence (first : Nat) : Nat → Nat → List UInt8
  | 0, n => [UInt8.ofNat (first + n)]
  | k + 1, n => sequence first k (n / 64) ++ [UInt8.ofNat (128 + n % 64)]

variable {first k m n : Nat} {x y : List UInt8}

theorem byte_lt (bound : n < 256) (less : m < n) : UInt8.ofNat m < UInt8.ofNat n := by
  rw [UInt8.lt_iff_toNat_lt, UInt8.toNat_ofNat', UInt8.toNat_ofNat']
  omega

theorem exists_sequence_eq_cons (first k n : Nat) :
    ∃ rest, sequence first k n = UInt8.ofNat (first + leading k n) :: rest := by
  induction k generalizing n with
  | zero => exact ⟨[], rfl⟩
  | succ k ih =>
    obtain ⟨rest, before⟩ := ih (n / 64)
    exact ⟨rest ++ [UInt8.ofNat (128 + n % 64)], by rw [sequence, before, leading, List.cons_append]⟩

theorem sequence_lt (bound : first + leading k n < 256) (less : m < n) :
    sequence first k m ++ x < sequence first k n ++ y := by
  induction k generalizing m n x y with
  | zero =>
    rw [leading] at bound
    have byte := byte_lt bound (Nat.add_lt_add_left less first)
    exact List.cons_lt_cons_iff.mpr (Or.inl byte)
  | succ k ih =>
    rw [sequence, sequence, List.append_assoc, List.append_assoc]
    by_cases high : m / 64 < n / 64
    · exact ih bound high
    · have same : m / 64 = n / 64 := by omega
      have last := byte_lt (show 128 + n % 64 < 256 by omega) (show 128 + m % 64 < _ by omega)
      rw [same]
      exact List.append_left_lt (List.cons_lt_cons_iff.mpr (Or.inl last))

/-- The number of bytes after the first one. -/
def followers (n : Nat) : Nat :=
  if n ≤ 127 then 0 else if n ≤ 2047 then 1 else if n ≤ 65535 then 2 else 3

/-- Where the first byte is counted from, which tells how many others follow. -/
def base : Nat → Nat
  | 0 => 0
  | 1 => 192
  | 2 => 224
  | _ => 240

/-- The first byte of the encoding of a number. -/
def firstByte (n : Nat) : Nat :=
  base (followers n) + leading (followers n) n

theorem firstByte_cases (n : Nat) :
    n ≤ 127 ∧ followers n = 0 ∧ firstByte n = n ∨
    127 < n ∧ n ≤ 2047 ∧ followers n = 1 ∧ firstByte n = 192 + n / 64 ∨
    2047 < n ∧ n ≤ 65535 ∧ followers n = 2 ∧ firstByte n = 224 + n / 64 / 64 ∨
    65535 < n ∧ followers n = 3 ∧ firstByte n = 240 + n / 64 / 64 / 64 := by
  have first {k : Nat} (size : followers n = k) : firstByte n = base k + leading k n := by
    rw [firstByte, size]
  by_cases one : n ≤ 127
  · have size : followers n = 0 := if_pos one
    have byte : firstByte n = 0 + n := first size
    omega
  by_cases two : n ≤ 2047
  · have size : followers n = 1 := by rw [followers, if_neg one, if_pos two]
    have byte : firstByte n = 192 + n / 64 := first size
    omega
  by_cases three : n ≤ 65535
  · have size : followers n = 2 := by rw [followers, if_neg one, if_neg two, if_pos three]
    have byte : firstByte n = 224 + n / 64 / 64 := first size
    omega
  · have size : followers n = 3 := by rw [followers, if_neg one, if_neg two, if_neg three]
    have byte : firstByte n = 240 + n / 64 / 64 / 64 := first size
    omega

theorem toNat_lt (c : Char) : c.toNat < 1114112 := by
  have valid : c.toNat.isValidChar := c.valid
  rw [Nat.isValidChar] at valid
  omega

theorem firstByte_lt (bound : n < 1114112) : firstByte n < 256 := by
  have cases := firstByte_cases n
  omega

/-- Either two numbers have encodings of one length, or the first bytes tell them apart. -/
theorem followers_eq_or_firstByte_lt (less : m < n) :
    followers m = followers n ∨ firstByte m < firstByte n := by
  have smaller := firstByte_cases m
  have greater := firstByte_cases n
  omega

theorem utf8EncodeChar_eq (c : Char) :
    String.utf8EncodeChar c = sequence (base (followers c.toNat)) (followers c.toNat) c.toNat := by
  have bound := toNat_lt c
  have number : c.val.toNat = c.toNat := rfl
  unfold String.utf8EncodeChar followers
  rw [number]
  generalize c.toNat = n at bound
  dsimp only
  split
  · simp [sequence, base]
  · split
    · have high : n / 64 % 32 + 192 = 192 + n / 64 := by omega
      rw [high, Nat.add_comm (n % 64)]
      rfl
    · split
      · have high : n / 4096 % 16 + 224 = 224 + n / 64 / 64 := by omega
        rw [high, Nat.add_comm (n % 64), Nat.add_comm (n / 64 % 64)]
        rfl
      · have high : n / 262144 % 8 + 240 = 240 + n / 64 / 64 / 64 := by omega
        have middle : n / 4096 % 64 + 128 = 128 + n / 64 / 64 % 64 := by omega
        rw [high, middle, Nat.add_comm (n % 64), Nat.add_comm (n / 64 % 64)]
        rfl

theorem exists_utf8EncodeChar_eq_cons (c : Char) :
    ∃ rest, String.utf8EncodeChar c = UInt8.ofNat (firstByte c.toNat) :: rest := by
  rw [utf8EncodeChar_eq]
  exact exists_sequence_eq_cons _ _ _

/-- The encodings of two characters differ at some byte, which is smaller in that of the smaller
one, so what follows does not matter. -/
theorem utf8EncodeChar_lt {c d : Char} (less : c < d) :
    String.utf8EncodeChar c ++ x < String.utf8EncodeChar d ++ y := by
  have smaller : c.toNat < d.toNat := Char.lt_def.mp less
  have bound := firstByte_lt (toNat_lt d)
  rcases followers_eq_or_firstByte_lt smaller with same | first
  · rw [utf8EncodeChar_eq, utf8EncodeChar_eq, same]
    exact sequence_lt bound smaller
  · obtain ⟨restLeft, left⟩ := exists_utf8EncodeChar_eq_cons c
    obtain ⟨restRight, right⟩ := exists_utf8EncodeChar_eq_cons d
    rw [left, right]
    exact List.cons_lt_cons_iff.mpr (Or.inl (byte_lt bound first))

theorem flatMap_utf8EncodeChar_lt {cs ds : List Char} (less : cs < ds) :
    cs.flatMap String.utf8EncodeChar < ds.flatMap String.utf8EncodeChar := by
  induction less with
  | @nil d rest =>
    obtain ⟨others, encoded⟩ := exists_utf8EncodeChar_eq_cons d
    rw [List.flatMap_cons, encoded]
    exact List.Lex.nil
  | rel less =>
    rw [List.flatMap_cons, List.flatMap_cons]
    exact utf8EncodeChar_lt less
  | cons _ ih =>
    rw [List.flatMap_cons, List.flatMap_cons]
    exact List.append_left_lt ih

/-- Texts are ordered by their characters just as by their bytes. -/
theorem lt_iff_bytes_lt {s t : String} : s < t ↔ bytes s < bytes t := by
  rw [bytes_eq, bytes_eq, String.lt_iff_toList_lt]
  constructor
  · exact flatMap_utf8EncodeChar_lt
  · intro less
    rcases lt_trichotomy s.toList t.toList with before | same | after
    · exact before
    · rw [same] at less
      exact absurd less (List.lt_irrefl _)
    · exact absurd less (List.lt_asymm (flatMap_utf8EncodeChar_lt after))

end Grf.Text
