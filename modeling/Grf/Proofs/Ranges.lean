import Grf.Proofs.Resolution
import Mathlib.Algebra.Order.Ring.Nat

namespace Grf

/-- No label lies behind the last sprite. -/
def Expansion.Bounded (e : Expansion) : Prop :=
  ∀ m ∈ e.marks, m.before ≤ e.sprites.length

namespace Expansion.Bounded

theorem single (s : Sprite) (labels : List Identifier) : (Expansion.single s labels).Bounded := by
  intro m member
  obtain ⟨label, _, rfl⟩ := List.mem_map.mp member
  exact Nat.zero_le _

theorem labelled {e : Expansion} (bounded : e.Bounded) (label : Option Identifier) :
    (e.labelled label).Bounded := by
  intro m member
  rcases List.mem_append.mp member with own | inner
  · obtain ⟨id, _, rfl⟩ := List.mem_map.mp own
    exact Nat.zero_le _
  · exact bounded m inner

theorem append {e next : Expansion} (first : e.Bounded) (second : next.Bounded) :
    (e.append next).Bounded := by
  intro m member
  have length : (e.append next).sprites.length = e.sprites.length + next.sprites.length :=
    List.length_append
  rcases List.mem_append.mp member with early | late
  · have bound := first m early
    omega
  · obtain ⟨k, inNext, rfl⟩ := List.mem_map.mp late
    have bound := second k inNext
    have shifted : (k.after e.sprites.length).before = e.sprites.length + k.before := rfl
    omega

end Expansion.Bounded

theorem TemplateLibrary.Expands.bounded {library : TemplateLibrary} {sprites : List Sprite}
    {e : Expansion} (expands : library.Expands sprites e) : e.Bounded := by
  induction expands with
  | nil =>
    intro m member
    cases member
  | real _ ih => exact (Expansion.Bounded.single _ _).append ih
  | recolour _ ih => exact (Expansion.Bounded.single _ _).append ih
  | use _ _ _ ihInner ih => exact (ihInner.labelled _).append ih

section Words

variable {n m : Nat}

theorem zero_le_ofNat_iff : 0 ≤ Int64.ofNat n ↔ n % 2 ^ 64 < 2 ^ 63 := by
  rw [Int64.le_iff_toInt_le, Int64.toInt_ofNat', Int.bmod_def]
  simp only [Int64.toInt_zero, Int64.size]
  omega

/-- Among words that are not negative, the order is that of the remainders. -/
theorem ofNat_between_iff (nonneg : 0 ≤ Int64.ofNat n) :
    0 ≤ Int64.ofNat m ∧ Int64.ofNat m ≤ Int64.ofNat n ↔ m % 2 ^ 64 ≤ n % 2 ^ 64 := by
  have small := zero_le_ofNat_iff.mp nonneg
  rw [zero_le_ofNat_iff, Int64.le_iff_toInt_le, Int64.toInt_ofNat', Int64.toInt_ofNat',
    Int.bmod_def, Int.bmod_def]
  simp only [Int64.size]
  omega

theorem toInt_ofNat_eq_iff : (Int64.ofNat n).toInt = n ↔ n < 2 ^ 63 := by
  rw [Int64.toInt_ofNat', Int.bmod_def]
  simp only [Int64.size]
  omega

end Words

namespace Resolved

/-- The count is not negative, and no offset lies before the first sprite or behind the last. -/
def InRange (r : Resolved) : Prop :=
  0 ≤ r.count ∧ ∀ l ∈ r.labels.labels, 0 ≤ l.offset ∧ l.offset ≤ r.count

instance (r : Resolved) : Decidable r.InRange :=
  inferInstanceAs (Decidable (_ ∧ _))

/-- What count and offsets tell about the sprites that they stand for. -/
structure Measures (r : Resolved) (e : Expansion) : Prop where
  /-- Numbers that differ by a multiple of 2 ^ 64 are one word, and half of the words are negative. -/
  inRange_iff : r.InRange ↔ e.sprites.length % 2 ^ 64 < 2 ^ 63 ∧
    ∀ m ∈ e.marks, m.before % 2 ^ 64 ≤ e.sprites.length % 2 ^ 64
  count_iff : r.count.toInt = e.sprites.length ↔ e.sprites.length < 2 ^ 63
  inRange : e.sprites.length < 2 ^ 63 → r.InRange
  offsets : e.sprites.length < 2 ^ 63 →
    (r.labels.labels.map fun l => (l.name, l.offset.toInt)).Perm
      (e.marks.map fun m => (m.label.name, (m.before : Int)))

namespace Matches

variable {r : Resolved} {e : Expansion}

theorem inRange_iff (agree : r.Matches e) :
    r.InRange ↔ e.sprites.length % 2 ^ 64 < 2 ^ 63 ∧
      ∀ m ∈ e.marks, m.before % 2 ^ 64 ≤ e.sprites.length % 2 ^ 64 := by
  have offsets (p : Int64 → Prop) :
      (∀ l ∈ r.labels.labels, p l.offset) ↔ ∀ m ∈ e.marks, p (Int64.ofNat m.before) := by
    constructor
    · intro all m member
      exact all m.toLabel (agree.labels.mem_iff.mpr (List.mem_map_of_mem member))
    · intro all l member
      obtain ⟨m, inMarks, rfl⟩ := List.mem_map.mp (agree.labels.mem_iff.mp member)
      exact all m inMarks
  rw [InRange, offsets fun offset => 0 ≤ offset ∧ offset ≤ r.count, agree.count,
    ← zero_le_ofNat_iff]
  refine and_congr_right fun nonneg => ?_
  exact forall₂_congr fun m _ => ofNat_between_iff nonneg

/-- Sprites that can be counted in a word are counted right, and so are those before a label. -/
theorem measures (agree : r.Matches e) (bounded : e.Bounded) : r.Measures e where
  inRange_iff := agree.inRange_iff
  count_iff := by
    rw [agree.count]
    exact toInt_ofNat_eq_iff
  inRange := by
    intro few
    refine agree.inRange_iff.mpr ⟨by omega, ?_⟩
    intro m member
    have bound := bounded m member
    omega
  offsets := by
    intro few
    refine (agree.labels.map _).trans (List.Perm.of_eq ?_)
    rw [List.map_map]
    refine List.map_congr_left ?_
    intro m member
    have bound := bounded m member
    have same : (Int64.ofNat m.before).toInt = m.before := toInt_ofNat_eq_iff.mpr (by omega)
    exact congrArg (Prod.mk m.label.name) same

end Matches

end Resolved

namespace TemplateLibrary

/-- Count and offsets of a sequence that is resolved, and those that are kept with a template, are
in range as long as the sprites can be counted in a word. Nothing keeps their number that small, and
what is beyond wraps around. -/
theorem resolve_measures (templates : List Template) (sprites : List Sprite) :
    (∀ r, (registerAll {} templates).resolve sprites = .ok r →
      ∃ e, (registerAll {} templates).Expands sprites e ∧ r.Measures e) ∧
    ∀ name t contents, (registerAll {} templates).find? name = some (t, contents) →
      ∃ e, (registerAll {} templates).Expands t.sprites e ∧ contents.Measures e := by
  have sound := sound_registerAll templates
  constructor
  · intro r run
    obtain ⟨e, expands, agree⟩ := resolve_matches sound run
    exact ⟨e, expands, agree.measures expands.bounded⟩
  · intro name t contents found
    obtain ⟨e, expands, agree⟩ := sound name t contents found
    exact ⟨e, expands, agree.measures expands.bounded⟩

/-- The name of a level, longer than those of all the levels below. -/
def levelName (depth : Nat) : String :=
  String.ofList (List.replicate (depth + 1) 't')

def useLevel (depth : Nat) : Sprite :=
  .use ⟨levelName depth, none⟩ [] none none

/-- The lowest level is a single sprite, and every other one uses the level below it twice. -/
def level : Nat → Template
  | 0 => ⟨⟨levelName 0, none⟩, [], [.real [] [] none], none⟩
  | depth + 1 => ⟨⟨levelName (depth + 1), none⟩, [], [useLevel depth, useLevel depth], none⟩

def tower (depth : Nat) : List Template :=
  (List.range (depth + 1)).map level

/-- The library that holds the lowest levels, as many as given. -/
def towerLibrary (count : Nat) : TemplateLibrary :=
  ⟨(List.range count).map fun k => (level k, ⟨{}, Int64.ofNat (2 ^ k)⟩)⟩

theorem levelName_inj {k depth : Nat} : levelName k = levelName depth ↔ k = depth := by
  rw [levelName, levelName, String.ofList_inj, List.replicate_inj]
  simp

theorem name_level (depth : Nat) : (level depth).name.name = levelName depth := by
  cases depth <;> rfl

theorem towerLibrary_succ (count : Nat) :
    towerLibrary (count + 1) =
      ⟨(towerLibrary count).entries ++ [(level count, ⟨{}, Int64.ofNat (2 ^ count)⟩)]⟩ := by
  simp only [towerLibrary, List.range_succ, List.map_append, List.map_cons, List.map_nil]

theorem find?_towerLibrary (count k : Nat) :
    (towerLibrary count).find? (levelName k) =
      if k < count then some (level k, ⟨{}, Int64.ofNat (2 ^ k)⟩) else none := by
  induction count with
  | zero => rfl
  | succ count ih =>
    rw [towerLibrary_succ, find?_concat, ih]
    simp only [name_level, levelName_inj]
    rcases Nat.lt_trichotomy k count with below | here | above
    · rw [if_pos below, Option.some_or, if_pos (by omega)]
    · subst here
      simp
    · rw [if_neg (by omega), if_neg (by omega), if_neg (by omega), Option.none_or]

/-- A usage of a level adds its sprites to the count, and no label. -/
theorem resolveAfter_useLevel {count k : Nat} (known : k < count) (done : Resolved)
    (rest : List Sprite) :
    (towerLibrary count).resolveAfter done (useLevel k :: rest) =
      (towerLibrary count).resolveAfter ⟨done.labels, done.count + Int64.ofNat (2 ^ k)⟩ rest := by
  have found := find?_towerLibrary count k
  rw [if_pos known] at found
  have resolved : (towerLibrary count).resolveSprite (useLevel k) =
      .ok ⟨{}, Int64.ofNat (2 ^ k)⟩ := by
    simp only [resolveSprite, useLevel, found]
  exact resolveAfter_cons [] resolved (.refl _) .nil (by simp) rfl rest

theorem usageFailure?_level (count : Nat) :
    (towerLibrary count).usageFailure? (level count) (level count).sprites = none := by
  cases count with
  | zero => rfl
  | succ depth =>
    have other : levelName depth ≠ levelName (depth + 1) := by
      intro same
      have := levelName_inj.mp same
      omega
    have found := find?_towerLibrary (depth + 1) depth
    rw [if_pos (Nat.lt_succ_self depth)] at found
    simp [level, useLevel, usageFailure?, other, found]

theorem resolve_level (count : Nat) :
    (towerLibrary count).resolve (level count).sprites = .ok ⟨{}, Int64.ofNat (2 ^ count)⟩ := by
  cases count with
  | zero =>
    have single : resolveAfter (towerLibrary 0) {} (level 0).sprites =
        resolveAfter (towerLibrary 0) ⟨{}, 1⟩ [] :=
      resolveAfter_cons [] rfl (.refl _) .nil rfl rfl []
    exact single
  | succ depth =>
    have twice : (0 : Int64) + Int64.ofNat (2 ^ depth) + Int64.ofNat (2 ^ depth) =
        Int64.ofNat (2 ^ (depth + 1)) := by
      rw [Int64.zero_add, ← Int64.ofNat_add, Nat.pow_succ, Nat.mul_two]
    rw [level, resolve, resolveAfter_useLevel (Nat.lt_succ_self depth),
      resolveAfter_useLevel (Nat.lt_succ_self depth), twice]
    rfl

theorem register_level (count : Nat) :
    (towerLibrary count).register (level count) =
      .ok (towerLibrary (count + 1), ⟨{}, Int64.ofNat (2 ^ count)⟩) := by
  have free := find?_towerLibrary count count
  rw [if_neg (Nat.lt_irrefl count), ← name_level] at free
  exact register_eq_ok.mpr
    ⟨usageFailure?_level count, free, resolve_level count, towerLibrary_succ count⟩

theorem registerAll_append (library : TemplateLibrary) (templates more : List Template) :
    library.registerAll (templates ++ more) = (library.registerAll templates).registerAll more := by
  induction templates generalizing library with
  | nil => rfl
  | cons t rest ih =>
    rw [List.cons_append, registerAll, registerAll]
    split
    · exact ih library
    · exact ih _

/-- All levels of a tower are registered, whatever its height, and each one has twice the sprites of
the one below. -/
theorem registerAll_tower (depth : Nat) :
    registerAll {} (tower depth) = towerLibrary (depth + 1) := by
  have levels (count : Nat) :
      registerAll {} ((List.range count).map level) = towerLibrary count := by
    induction count with
    | zero => rfl
    | succ count ih =>
      rw [List.range_succ, List.map_append, registerAll_append, ih, List.map_singleton, registerAll,
        register_level]
      rfl
  exact levels (depth + 1)

/-- At the height of 63 levels the count has become negative, and a label behind the tower with it. -/
theorem resolve_tower_wraps : ∃ r,
    (registerAll {} (tower 63)).resolve [useLevel 63, .real [⟨"after", none⟩] [] none] = .ok r ∧
      r.count = Int64.minValue + 1 ∧ r.labels.labels = [⟨"after", Int64.minValue, none⟩] ∧
      ¬ r.InRange := by
  have last : (towerLibrary 64).resolveAfter ⟨{}, 0 + Int64.ofNat (2 ^ 63)⟩
      [.real [⟨"after", none⟩] [] none] = (towerLibrary 64).resolveAfter
        ⟨⟨[⟨"after", Int64.minValue, none⟩], by decide⟩, Int64.minValue + 1⟩ [] :=
    resolveAfter_cons [⟨"after", 0, none⟩] rfl (.refl _) (List.pairwise_singleton _ _)
      (by decide +kernel) (by decide +kernel) []
  rw [registerAll_tower, resolve, resolveAfter_useLevel (by decide)]
  exact ⟨_, last, by decide +kernel, rfl, by decide +kernel⟩

end TemplateLibrary

end Grf
