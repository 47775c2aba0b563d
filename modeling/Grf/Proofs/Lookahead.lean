import Grf.Proofs.Excerpts

namespace Grf

namespace Text

section

variable {α : Type} [DecidableEq α] {mark : α} {first : List α}

theorem cutAt_append (absent : mark ∉ first) (piece rest : List α) :
    cutAt mark piece (first ++ mark :: rest) = (piece.reverse ++ first) :: cutAt mark [] rest := by
  induction first generalizing piece with
  | nil => rw [List.nil_append, cutAt, if_pos rfl, List.append_nil]
  | cons x others ih =>
    have other : x ≠ mark := (List.ne_of_not_mem_cons absent).symm
    rw [List.cons_append, cutAt, if_neg other, ih (List.not_mem_of_not_mem_cons absent),
      List.reverse_cons, List.append_assoc, List.singleton_append]

theorem pieces_ne_nil (mark : α) (sequence : List α) : pieces mark sequence ≠ [] := by
  have nonempty (piece : List α) : cutAt mark piece sequence ≠ [] := by
    induction sequence generalizing piece with
    | nil => exact List.cons_ne_nil _ _
    | cons x rest ih =>
      rw [cutAt]
      split
      · exact List.cons_ne_nil _ _
      · exact ih _
  exact nonempty []

end

theorem lines_append {first : Bytes} (oneLine : lineFeed ∉ first) (rest : Bytes) :
    lines (first ++ lineFeed :: rest) = first :: lines rest := by
  have split : pieces lineFeed (first ++ lineFeed :: rest) = first :: pieces lineFeed rest :=
    cutAt_append oneLine [] rest
  obtain ⟨piece, others, more⟩ := List.exists_cons_of_ne_nil (pieces_ne_nil lineFeed rest)
  rw [lines, lines, split, more, List.getLast?_cons_cons, List.dropLast_cons_cons]
  exact apply_ite (List.cons first) _ _ _ |>.symm

theorem lines_of_not_mem {text : Bytes} (oneLine : lineFeed ∉ text) (nonempty : text ≠ []) :
    lines text = [text] := by
  have whole : pieces lineFeed text = [text] := cutAt_of_not_mem oneLine []
  rw [lines, whole]
  exact if_neg (by simpa using nonempty)

end Text

namespace Excerpt

variable {paint : Rendition → Bytes → Bytes} {read changed : Reader} {p : Position}
  {contents other : Bytes}

/-- The position selects some of the given first lines of a file, and all of them can be read. -/
structure Selectable (p : Position) (head : List Bytes) : Prop where
  showable : isShowable p = true
  short : ∀ line ∈ head, line.length < lineLimit
  reached : p.firstLine ≤ head.length

/-- The line after the range of the position cannot be read. -/
def Blocked (p : Position) (contents : Bytes) : Prop :=
  ∃ line, (Text.lines contents)[p.lastLine]? = some line ∧ lineLimit ≤ line.length

theorem legible_iff (showable : isShowable p = true) :
    Legible p contents ↔
      Selectable p ((Text.lines contents).take p.lastLine) ∧ ¬ Blocked p contents := by
  obtain ⟨_, _, ordered, _⟩ := lines_of_isShowable showable
  have split : (Text.lines contents).take (p.lastLine + 1) =
      (Text.lines contents).take p.lastLine ++ (Text.lines contents)[p.lastLine]?.toList :=
    List.take_add_one
  have length : ((Text.lines contents).take p.lastLine).length =
      min p.lastLine (Text.lines contents).length := List.length_take
  constructor
  · rintro ⟨short, reached⟩
    rw [split] at short
    obtain ⟨shortHead, shortNext⟩ := List.forall_mem_append.mp short
    refine ⟨⟨showable, shortHead, by omega⟩, ?_⟩
    rintro ⟨line, next, long⟩
    have bound := shortNext line (by rw [next]; exact List.mem_singleton_self line)
    omega
  · rintro ⟨selectable, free⟩
    have reached := selectable.reached
    refine ⟨?_, by omega⟩
    rw [split, List.forall_mem_append]
    refine ⟨selectable.short, fun line member => ?_⟩
    by_contra long
    exact free ⟨line, Option.mem_toList.mp member, by omega⟩

/-- Whatever the painter does, the selected lines stand between two empty ones. -/
theorem showText_ne_nil (nonempty : selectLines contents p ≠ []) :
    showText paint contents p ≠ [] := by
  rw [showText]
  split
  · rename_i empty
    exact absurd empty nonempty
  · exact List.cons_ne_nil _ _

theorem ofPosition_eq_nil_iff (found : read p.file = .ok contents) :
    ofPosition paint read p = [] ↔ ¬ (Selectable p ((Text.lines contents).take p.lastLine) ∧
      ¬ Blocked p contents) := by
  constructor
  · rintro empty ⟨selectable, free⟩
    have legible := (legible_iff selectable.showable).mpr ⟨selectable, free⟩
    rw [ofPosition_eq_showText selectable.showable found] at empty
    exact showText_ne_nil ((selectLines_ne_nil_iff selectable.showable).mpr legible) empty
  · intro hidden
    refine ofPosition_illegible fun text showable foundAgain legible => hidden ?_
    obtain rfl : contents = text := Except.ok.inj (found.symm.trans foundAgain)
    exact (legible_iff showable).mp legible

/-- The excerpt depends on the lines up to the end of the range, as long as they are shown at all. -/
theorem ofPosition_eq (found : read p.file = .ok contents) (foundOther : changed p.file = .ok other)
    (same : (Text.lines contents).take p.lastLine = (Text.lines other).take p.lastLine)
    (showable : isShowable p = true) (legible : Legible p contents)
    (legibleOther : Legible p other) : ofPosition paint read p = ofPosition paint changed p := by
  have selected : selectLines contents p = selectLines other p := by
    rw [selectLines_of_short legible.short, selectLines_of_short legibleOther.short, same]
  rw [ofPosition_eq_showText showable found, ofPosition_eq_showText showable foundOther, showText,
    selected, ← showText]

/-- Two files that agree up to the end of the range give the same excerpt exactly if the line after
the range can be read in both or in neither of them, or if nothing in the range is shown anyway. That
line is read although no part of it is shown. -/
theorem ofPosition_lookahead (found : read p.file = .ok contents)
    (foundOther : changed p.file = .ok other)
    (same : (Text.lines contents).take p.lastLine = (Text.lines other).take p.lastLine) :
    ofPosition paint read p = ofPosition paint changed p ↔
      (Selectable p ((Text.lines contents).take p.lastLine) →
        (Blocked p contents ↔ Blocked p other)) := by
  have empty : ofPosition paint read p = [] ↔ _ := ofPosition_eq_nil_iff found
  have emptyOther : ofPosition paint changed p = [] ↔ _ := ofPosition_eq_nil_iff foundOther
  rw [← same] at emptyOther
  by_cases selectable : Selectable p ((Text.lines contents).take p.lastLine)
  · by_cases free : Blocked p contents ∨ Blocked p other
    · -- One excerpt is empty, so they are equal if the other one is empty too.
      rcases free with blocked | blocked
      · have nothing := empty.mpr fun shown => shown.2 blocked
        rw [nothing, eq_comm, emptyOther]
        simp [selectable, blocked]
      · have nothing := emptyOther.mpr fun shown => shown.2 blocked
        rw [nothing, empty]
        simp [selectable, blocked]
    · obtain ⟨clear, clearOther⟩ := not_or.mp free
      have legible := (legible_iff selectable.showable).mpr ⟨selectable, clear⟩
      have legibleOther := (legible_iff selectable.showable).mpr ⟨same ▸ selectable, clearOther⟩
      refine iff_of_true ?_ fun _ => iff_of_false clear clearOther
      exact ofPosition_eq found foundOther same selectable.showable legible legibleOther
  · refine iff_of_true ?_ fun shown => absurd shown selectable
    rw [empty.mpr fun shown => selectable shown.1, emptyOther.mpr fun shown => selectable shown.1]

/-- A line of source and behind it a line of a given length. -/
def trailed (n : Nat) : Bytes :=
  Text.bytes "x = y;" ++ Text.lineFeed :: List.replicate n 122

def trailedFile (n : Nat) : FileTree :=
  soleFile ["home", "a.nml"] (trailed n)

/-- The fifth byte of the first line. -/
def spot : Position :=
  .ofLine "a.nml" 1 4 1

theorem read_trailedFile (n : Nat) : (trailedFile n).read "a.nml" = .ok (trailed n) :=
  rfl

theorem lines_trailed (n : Nat) :
    Text.lines (trailed n) =
      Text.bytes "x = y;" :: if n = 0 then [] else [List.replicate n 122] := by
  have first : Text.lines (trailed n) =
      Text.bytes "x = y;" :: Text.lines (List.replicate n 122) :=
    Text.lines_append (by decide +kernel) _
  rw [first]
  congr 1
  split
  · rename_i zero
    rw [zero]
    rfl
  · rename_i positive
    refine Text.lines_of_not_mem (fun member => ?_) (by simpa using positive)
    exact absurd (List.eq_of_mem_replicate member) (by decide)

theorem blocked_trailed_iff (n : Nat) : Blocked spot (trailed n) ↔ lineLimit ≤ n := by
  have limit : lineLimit = 65536 := rfl
  have last : spot.lastLine = 1 := by decide
  rw [Blocked, lines_trailed, last, List.getElem?_cons_succ]
  by_cases zero : n = 0
  · rw [if_pos zero]
    refine iff_of_false ?_ (by omega)
    rintro ⟨line, next, _⟩
    cases next
  · rw [if_neg zero]
    constructor
    · rintro ⟨line, next, long⟩
      cases next
      rwa [List.length_replicate] at long
    · intro long
      exact ⟨_, rfl, by rwa [List.length_replicate]⟩

theorem take_lines_trailed (n : Nat) :
    (Text.lines (trailed n)).take spot.lastLine = [Text.bytes "x = y;"] := by
  have last : spot.lastLine = 1 := by decide
  rw [lines_trailed, last, List.take_succ_cons, List.take_zero]

/-- A line after the range that can be read makes no difference. -/
theorem ofPosition_lookahead_plain :
    (trailedFile 0).read "a.nml" = .ok (trailed 0) ∧
    (trailedFile 9).read "a.nml" = .ok (trailed 9) ∧
    (Text.lines (trailed 0)).take spot.lastLine = (Text.lines (trailed 9)).take spot.lastLine ∧
    ofPosition Terminal.paint (trailedFile 0).read spot =
      ofPosition Terminal.paint (trailedFile 9).read spot := by
  have same := (take_lines_trailed 0).trans (take_lines_trailed 9).symm
  refine ⟨read_trailedFile 0, read_trailedFile 9, same, ?_⟩
  refine (ofPosition_lookahead (read_trailedFile 0) (read_trailedFile 9) same).mpr fun _ => ?_
  rw [blocked_trailed_iff, blocked_trailed_iff]
  decide

/-- A line after the range that is too long hides the excerpt, although the files agree up to the end
of the range. -/
theorem ofPosition_lookahead_long :
    (trailedFile 0).read "a.nml" = .ok (trailed 0) ∧
    (trailedFile 65536).read "a.nml" = .ok (trailed 65536) ∧
    (Text.lines (trailed 0)).take spot.lastLine = (Text.lines (trailed 65536)).take spot.lastLine ∧
    ofPosition Terminal.paint (trailedFile 0).read spot =
      Text.bytes "\n\x1b[92m1 \x1b[0m|  x = y;\n  |      \x1b[31m^\x1b[0m\n\n" ∧
    ofPosition Terminal.paint (trailedFile 65536).read spot = [] := by
  have blocked := (blocked_trailed_iff 65536).mpr (Nat.le_refl _)
  refine ⟨read_trailedFile 0, read_trailedFile 65536,
    (take_lines_trailed 0).trans (take_lines_trailed 65536).symm, by decide +kernel, ?_⟩
  exact (ofPosition_eq_nil_iff (read_trailedFile 65536)).mpr fun shown => shown.2 blocked

end Excerpt

end Grf
