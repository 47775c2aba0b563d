import Grf.Proofs.ByteOrder
import Grf.Terminal

namespace Grf

namespace Text

variable {a b : Bytes}

/-- A text of one line without control sequences. -/
structure IsPlain (text : Bytes) : Prop where
  oneLine : lineFeed ∉ text
  uncontrolled : escape ∉ text

theorem IsPlain.append (first : IsPlain a) (second : IsPlain b) : IsPlain (a ++ b) where
  oneLine := List.not_mem_append first.oneLine second.oneLine
  uncontrolled := List.not_mem_append first.uncontrolled second.uncontrolled

theorem isPlain_replicate {byte : UInt8} (visible : lineFeed ≠ byte ∧ escape ≠ byte) (n : Nat) :
    IsPlain (List.replicate n byte) where
  oneLine member := visible.1 (List.eq_of_mem_replicate member)
  uncontrolled member := visible.2 (List.eq_of_mem_replicate member)

/-- The digits of a number are bytes from 48 on. -/
theorem le_of_mem_bytes_number {byte : UInt8} {n : Nat} (member : byte ∈ bytes (toString n)) :
    48 ≤ byte.toNat := by
  have digits : (toString n).toList = Nat.toDigits 10 n := by
    simp [Nat.toString_eq_repr, Nat.repr]
  rw [bytes_eq, digits] at member
  obtain ⟨c, inside, encoded⟩ := List.mem_flatMap.mp member
  have digit := Nat.isDigit_of_mem_toDigits (by decide) (by decide) inside
  simp only [Char.isDigit, ge_iff_le, Bool.and_eq_true, decide_eq_true_eq,
    UInt32.le_iff_toNat_le] at digit
  obtain ⟨lower, upper⟩ := digit
  have low : 48 ≤ c.val.toNat := lower
  have high : c.val.toNat ≤ 57 := upper
  -- Such a character is encoded as one byte, which is its number.
  have one : c.utf8Size = 1 := by
    rw [Char.utf8Size_eq_one_iff, UInt32.le_iff_toNat_le]
    exact Nat.le_trans high (by decide)
  rw [String.utf8EncodeChar_eq_singleton one, List.mem_singleton] at encoded
  rw [encoded, UInt32.toNat_toUInt8]
  omega

theorem isPlain_number (n : Nat) : IsPlain (bytes (toString n)) where
  oneLine member := absurd (le_of_mem_bytes_number member) (by decide)
  uncontrolled member := absurd (le_of_mem_bytes_number member) (by decide)

theorem bytes_append (s t : String) : bytes (s ++ t) = bytes s ++ bytes t := by
  simp [bytes]

theorem bytes_blanks (n : Nat) : bytes (blanks n) = List.replicate n blank := by
  rw [bytes_eq, blanks, String.toList_ofList]
  induction n with
  | zero => rfl
  | succ n ih =>
    rw [List.replicate_succ, List.flatMap_cons, ih, List.replicate_succ]
    rfl

theorem cutAt_of_not_mem {α : Type} [DecidableEq α] {mark : α} {sequence : List α}
    (absent : mark ∉ sequence) (piece : List α) :
    cutAt mark piece sequence = [piece.reverse ++ sequence] := by
  induction sequence generalizing piece with
  | nil => rw [cutAt, List.append_nil]
  | cons x rest ih =>
    have other : x ≠ mark := (List.ne_of_not_mem_cons absent).symm
    rw [cutAt, if_neg other, ih (List.not_mem_of_not_mem_cons absent), List.reverse_cons,
      List.append_assoc, List.singleton_append]

end Text

/-- The renditions that a painter selects before and after a text. Without colours there are none. -/
structure Palette where
  before : Rendition → List String
  after : Rendition → List String

namespace Palette

/-- A text between the control sequences for a rendition. -/
def frame (palette : Palette) (rendition : Rendition) (text : Bytes) : Bytes :=
  (palette.before rendition).flatMap Terminal.select ++ text ++
    (palette.after rendition).flatMap Terminal.select

/-- A plain text is painted by control sequences at either end. -/
def PaintsPlain (palette : Palette) (paint : Rendition → Bytes → Bytes) : Prop :=
  ∀ rendition text, Text.IsPlain text → paint rendition text = palette.frame rendition text

end Palette

namespace Terminal

theorem reopen_of_not_mem {line : Bytes} (plain : Text.escape ∉ line) (code : String)
    (done : Bytes) : reopen code done line = done.reverse ++ line := by
  fun_induction reopen code done line with
  | case1 => exact absurd List.mem_cons_self plain
  | case2 done b rest _ ih =>
    rw [ih (List.not_mem_of_not_mem_cons plain), List.reverse_cons, List.append_assoc,
      List.singleton_append]
  | case3 => rw [List.append_nil]

/-- A coloured ground is selected and reset twice. -/
def palette : Palette where
  before rendition :=
    if rendition.isBlock then [rendition.code, rendition.code] else [rendition.code]
  after rendition := if rendition.isBlock then ["0", "0"] else ["0"]

theorem paint_plain : palette.PaintsPlain paint := by
  intro rendition text plain
  have whole : Text.pieces Text.lineFeed text = [text] := Text.cutAt_of_not_mem plain.oneLine []
  have line : paintLine rendition.code text = select rendition.code ++ text ++ select "0" := by
    rw [paintLine, reopen_of_not_mem plain.uncontrolled, List.reverse_nil, List.nil_append]
  rw [paint, whole, List.map_singleton, List.intercalate_singleton, line, Palette.frame, palette]
  dsimp only
  split <;> simp

end Terminal

end Grf
