import Grf.Template

namespace Grf

/-- A label of a flat sprite list, with the number of sprites before the one it names. -/
structure Mark where
  label : Identifier
  before : Nat

namespace Mark

def after (m : Mark) (count : Nat) : Mark :=
  { m with before := count + m.before }

/-- The entry of a label table that stands for the mark. Offsets are words, so they wrap around. -/
def toLabel (m : Mark) : Label :=
  ⟨m.label.name, Int64.ofNat m.before, m.label.position⟩

theorem shift_toLabel (m : Mark) (count : Nat) :
    m.toLabel.shift (Int64.ofNat count) = (m.after count).toLabel := by
  simp only [toLabel, after, Label.shift, Int64.ofNat_add, Int64.add_comm]

end Mark

/-- A flat list of sprites and its labels. -/
structure Expansion where
  sprites : List Sprite := []
  marks : List Mark := []

namespace Expansion

/-- One sprite; its labels name the sprite itself. -/
def single (s : Sprite) (labels : List Identifier) : Expansion :=
  ⟨[s], labels.map (⟨·, 0⟩)⟩

/-- The label of a usage names the start of what the usage expands to. -/
def labelled (e : Expansion) (label : Option Identifier) : Expansion :=
  { e with marks := label.toList.map (⟨·, 0⟩) ++ e.marks }

def append (e next : Expansion) : Expansion :=
  ⟨e.sprites ++ next.sprites, e.marks ++ next.marks.map (·.after e.sprites.length)⟩

/-- The names of all labels, those that occur more than once included. -/
def names (e : Expansion) : List String :=
  e.marks.map (·.label.name)

theorem names_single (s : Sprite) (labels : List Identifier) :
    (single s labels).names = labels.map Identifier.name := by
  simp only [names, single, List.map_map, Function.comp_def]

theorem append_empty (e : Expansion) : e.append {} = e := by
  simp [append]

theorem empty_append (e : Expansion) : Expansion.append {} e = e := by
  simp [append, Mark.after]

theorem append_assoc (e next last : Expansion) :
    (e.append next).append last = e.append (next.append last) := by
  simp [append, Mark.after, Nat.add_assoc]

theorem names_append (e next : Expansion) : (e.append next).names = e.names ++ next.names := by
  simp [names, append, Mark.after]

theorem names_toLabel (e : Expansion) : (e.marks.map Mark.toLabel).map Label.name = e.names := by
  simp [names, Mark.toLabel]

end Expansion

namespace TemplateLibrary

/-- Full expansion of a sprite sequence: every usage is replaced by the expansion of its template's
sprites. Nothing but the sprites of the templates is looked at. -/
inductive Expands (library : TemplateLibrary) : List Sprite → Expansion → Prop
  | nil : Expands library [] {}
  | real {labels params position rest e} :
      Expands library rest e →
      Expands library (.real labels params position :: rest)
        ((Expansion.single (.real labels params position) labels).append e)
  | recolour {labels mapping position rest e} :
      Expands library rest e →
      Expands library (.recolour labels mapping position :: rest)
        ((Expansion.single (.recolour labels mapping position) labels).append e)
  | use {template args label position rest t contents inner e} :
      library.find? template.name = some (t, contents) → Expands library t.sprites inner →
      Expands library rest e →
      Expands library (.use template args label position :: rest)
        ((inner.labelled label).append e)

/-- What a sprite sequence can hold: sprites and usages of registered templates. -/
def Admits (library : TemplateLibrary) : Sprite → Prop
  | .real _ _ _ => True
  | .recolour _ _ _ => True
  | .use template _ _ _ => (library.find? template.name).isSome
  | .foreign _ _ => False

namespace Expands

variable {library larger : TemplateLibrary} {sprites rest : List Sprite} {s : Sprite}
  {e other : Expansion}

theorem unique (expands : library.Expands sprites e) (again : library.Expands sprites other) :
    e = other := by
  induction expands generalizing other with
  | nil =>
    cases again
    rfl
  | real _ ih =>
    cases again with
    | real tail => rw [ih tail]
  | recolour _ ih =>
    cases again with
    | recolour tail => rw [ih tail]
  | use found _ _ ihInner ih =>
    cases again with
    | use foundAgain inner tail =>
      cases found.symm.trans foundAgain
      rw [ihInner inner, ih tail]

theorem admits (expands : library.Expands sprites e) : ∀ s ∈ sprites, library.Admits s := by
  induction expands with
  | nil => simp
  | real _ ih => exact List.forall_mem_cons.mpr ⟨trivial, ih⟩
  | recolour _ ih => exact List.forall_mem_cons.mpr ⟨trivial, ih⟩
  | use found _ _ _ ih =>
    refine List.forall_mem_cons.mpr ⟨?_, ih⟩
    simp only [Admits, found, Option.isSome_some]

/-- Templates that are added under new names do not change an expansion. -/
theorem mono (expands : library.Expands sprites e)
    (grows : ∀ name entry, library.find? name = some entry → larger.find? name = some entry) :
    larger.Expands sprites e := by
  induction expands with
  | nil => exact nil
  | real _ ih => exact real ih
  | recolour _ ih => exact recolour ih
  | use found _ _ ihInner ih => exact use (grows _ _ found) ihInner ih

theorem cons {first last : Expansion} (head : library.Expands [s] first)
    (tail : library.Expands rest last) : library.Expands (s :: rest) (first.append last) := by
  cases head with
  | real none =>
    cases none
    rw [Expansion.append_empty]
    exact real tail
  | recolour none =>
    cases none
    rw [Expansion.append_empty]
    exact recolour tail
  | use found inner none =>
    cases none
    rw [Expansion.append_empty]
    exact use found inner tail

theorem uncons (expands : library.Expands (s :: rest) e) :
    ∃ first last, library.Expands [s] first ∧ library.Expands rest last ∧
      e = first.append last := by
  cases expands with
  | real tail => exact ⟨_, _, real nil, tail, by rw [Expansion.append_empty]⟩
  | recolour tail => exact ⟨_, _, recolour nil, tail, by rw [Expansion.append_empty]⟩
  | use found inner tail => exact ⟨_, _, use found inner nil, tail, by rw [Expansion.append_empty]⟩

end Expands

end TemplateLibrary

end Grf
