import Grf.Expr
import Grf.Failure

namespace Grf

/-- A name for the sprite at an offset of a sequence, and the place where it is defined. -/
structure Label where
  name : String
  offset : Int64
  definedAt : Option Position
deriving DecidableEq

namespace Label

/-- Labels are listed by offset and then by name. -/
def Before (a b : Label) : Prop :=
  a.offset < b.offset ∨ a.offset = b.offset ∧ a.name < b.name

instance (a b : Label) : Decidable (a.Before b) :=
  inferInstanceAs (Decidable (_ ∨ _))

def shift (l : Label) (distance : Int64) : Label :=
  { l with offset := l.offset + distance }

end Label

theorem nodup_names_append {labels : List Label} {l : Label}
    (distinct : (labels.map Label.name).Nodup)
    (fresh : labels.find? (fun m => m.name == l.name) = none) :
    ((labels ++ [l]).map Label.name).Nodup := by
  rw [List.map_append, List.nodup_append]
  refine ⟨distinct, by simp, ?_⟩
  intro name member other same
  obtain ⟨m, inside, rfl⟩ := List.mem_map.mp member
  have different := List.find?_eq_none.mp fresh m inside
  simp only [List.map_cons, List.map_nil, List.mem_singleton] at same
  subst same
  simpa using different

/-- Labels in the order of their definition, no two of one name. -/
structure LabelTable where
  labels : List Label := []
  distinct : (labels.map Label.name).Nodup := by exact List.nodup_nil

namespace LabelTable

def find? (t : LabelTable) (name : String) : Option Label :=
  t.labels.find? fun l => l.name == name

/-- All labels, by offset and then by name. -/
def ordered (t : LabelTable) : List Label :=
  t.labels.mergeSort fun a b => !decide (b.Before a)

/-- Defines one more label, which must have a new name. -/
def add (t : LabelTable) (l : Label) : Except Failure LabelTable :=
  match fresh : t.find? l.name with
  | some first => .error (.redefinition (.labelTaken l.name) l.definedAt first.definedAt)
  | none => .ok ⟨t.labels ++ [l], nodup_names_append t.distinct fresh⟩

def addAll : LabelTable → List Label → Except Failure LabelTable
  | t, [] => .ok t
  | t, l :: rest =>
    match t.add l with
    | .error failure => .error failure
    | .ok extended => addAll extended rest

/-- Takes over the labels of a part of the sequence that starts at `offset`. -/
def merge (t part : LabelTable) (offset : Int64) : Except Failure LabelTable :=
  t.addAll (part.ordered.map (·.shift offset))

/-- The labels of a single sprite, which all name that sprite. -/
def ofIdentifiers (names : List Identifier) : Except Failure LabelTable :=
  addAll {} (names.map fun id => ⟨id.name, 0, id.position⟩)

end LabelTable

end Grf
