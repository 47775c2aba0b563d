import Grf.Text.Quoted

namespace Grf

/-- A category of game entity with its own action records. The code is the byte
written into the actions and also gives the order of the output. -/
structure Feature where
  code : UInt8
deriving DecidableEq

namespace Feature

/-- The script names of the listed features, in the order of their codes. -/
def names : List String :=
  ["FEAT_TRAINS", "FEAT_ROADVEHS", "FEAT_SHIPS", "FEAT_AIRCRAFT", "FEAT_STATIONS",
    "FEAT_CANALS", "FEAT_BRIDGES", "FEAT_HOUSES", "FEAT_GLOBALVARS", "FEAT_INDUSTRYTILES",
    "FEAT_INDUSTRIES", "FEAT_CARGOS", "FEAT_SOUNDEFFECTS", "FEAT_AIRPORTS", "FEAT_SIGNALS",
    "FEAT_OBJECTS", "FEAT_RAILTYPES", "FEAT_AIRPORTTILES", "FEAT_ROADTYPES", "FEAT_TRAMTYPES"]

/-- The script name, or the code in hexadecimal for a feature that has none. -/
def name (f : Feature) : String :=
  match names[f.code.toNat]? with
  | some known => known
  | none => "feature 0x" ++ String.ofList (Text.upperHex 2 f.code.toNat)

def isListed (f : Feature) : Bool :=
  f.code.toNat < names.length

/-- The feature with the given script name. -/
def ofName? (name : String) : Option Feature :=
  (names.findIdx? (· == name)).map fun index => ⟨UInt8.ofNat index⟩

end Feature

/-- Puts `f` at its place in an ascending list, unless it is there already. -/
def Feature.insertInto (f : Feature) : List Feature → List Feature
  | [] => [f]
  | g :: rest =>
    if f.code < g.code then f :: g :: rest
    else if f = g then g :: rest
    else g :: f.insertInto rest

theorem Feature.mem_insertInto {f g : Feature} {features : List Feature} :
    g ∈ f.insertInto features ↔ g = f ∨ g ∈ features := by
  induction features with
  | nil => simp [insertInto]
  | cons h rest ih =>
    simp only [insertInto]
    split
    · simp
    · split
      · rename_i same
        subst same
        simp
      · simp only [List.mem_cons, ih]
        constructor
        · rintro (first | new | later)
          · exact Or.inr (Or.inl first)
          · exact Or.inl new
          · exact Or.inr (Or.inr later)
        · rintro (new | first | later)
          · exact Or.inr (Or.inl new)
          · exact Or.inl first
          · exact Or.inr (Or.inr later)

theorem Feature.insertInto_ascending {f : Feature} {features : List Feature}
    (ascending : features.Pairwise (·.code < ·.code)) :
    (f.insertInto features).Pairwise (·.code < ·.code) := by
  induction features with
  | nil => simp [insertInto]
  | cons h rest ih =>
    obtain ⟨above, tail⟩ := List.pairwise_cons.mp ascending
    simp only [insertInto]
    split
    · rename_i below
      refine List.pairwise_cons.mpr ⟨?_, ascending⟩
      intro g member
      rcases List.mem_cons.mp member with same | later
      · exact same ▸ below
      · exact UInt8.lt_trans below (above g later)
    · split
      · exact ascending
      · rename_i notBelow different
        refine List.pairwise_cons.mpr ⟨?_, ih tail⟩
        intro g member
        rcases mem_insertInto.mp member with new | later
        · subst new
          have notSame : h.code ≠ g.code := fun same =>
            different (by cases g; cases h; exact congrArg Feature.mk same.symm)
          exact UInt8.lt_of_le_of_ne (UInt8.not_lt.mp notBelow) notSame
        · exact above g later

/-- A set of features, kept in ascending order of their codes. -/
structure FeatureSet where
  toList : List Feature
  ascending : toList.Pairwise (·.code < ·.code)
deriving DecidableEq

namespace FeatureSet

def empty : FeatureSet := ⟨[], .nil⟩

def insert (s : FeatureSet) (f : Feature) : FeatureSet :=
  ⟨f.insertInto s.toList, Feature.insertInto_ascending s.ascending⟩

def contains (s : FeatureSet) (f : Feature) : Bool :=
  f ∈ s.toList

/-- The set with a feature, and whether that is new in it. -/
def add (s : FeatureSet) (f : Feature) : Bool × FeatureSet :=
  (!s.contains f, s.insert f)

def ofList (features : List Feature) : FeatureSet :=
  features.foldl insert empty

theorem mem_insert {s : FeatureSet} {f g : Feature} :
    g ∈ (s.insert f).toList ↔ g = f ∨ g ∈ s.toList :=
  Feature.mem_insertInto

theorem mem_foldl_insert {s : FeatureSet} {f : Feature} {features : List Feature} :
    f ∈ (features.foldl insert s).toList ↔ f ∈ features ∨ f ∈ s.toList := by
  induction features generalizing s with
  | nil => simp
  | cons g rest ih =>
    rw [List.foldl_cons, ih, mem_insert, List.mem_cons, or_left_comm, ← or_assoc]

theorem mem_ofList {f : Feature} {features : List Feature} :
    f ∈ (ofList features).toList ↔ f ∈ features := by
  simp [ofList, mem_foldl_insert, empty]

end FeatureSet

end Grf
