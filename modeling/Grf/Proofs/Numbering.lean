import Grf.Proofs.Operations
import Mathlib.Data.Finset.Card
import Mathlib.Data.List.Nodup

namespace Grf

theorem FeatureSet.nodup (s : FeatureSet) : s.toList.Nodup := by
  refine s.ascending.imp ?_
  rintro f g below rfl
  exact UInt8.lt_irrefl _ below

/-- A feature set has only one order. -/
theorem FeatureSet.toList_eq {s t : FeatureSet} (same : ∀ f, f ∈ s.toList ↔ f ∈ t.toList) :
    s.toList = t.toList := by
  refine List.Perm.eq_of_pairwise ?_ s.ascending t.ascending
    ((List.perm_ext_iff_of_nodup s.nodup t.nodup).mpr same)
  intro f g _ _ below above
  exact absurd (UInt8.lt_trans below above) (UInt8.lt_irrefl _)

theorem FeatureSet.filter_eq (s : FeatureSet) (f : Feature) :
    s.toList.filter (· = f) = if f ∈ s.toList then [f] else [] := by
  have counted : s.toList.filter (· = f) = List.replicate (s.toList.count f) f :=
    List.filter_beq f
  rw [counted, s.nodup.count]
  split <;> rfl

namespace Ledger

variable {ledger after : Ledger} {n m : Node} {f : Feature} {id : Nat}

/-- The nodes with an ID for `f`, in the order of their preparation. -/
def holders (ledger : Ledger) (f : Feature) : List Node :=
  (ledger.prepared.map (·.1)).filter fun n => n.allocates && (ledger.features n).contains f

/-- The IDs that are given out for a feature are the places of their holders. -/
structure Numbered (ledger : Ledger) : Prop where
  late : ledger.carried = none → ledger.prepared = [] ∧ ledger.allocations = []
  distinct : (ledger.prepared.map (·.1)).Nodup
  memo : ∀ entry ∈ ledger.prepared, entry.2 = ledger.isUsed entry.1
  pool : ∀ f, ledger.allocations.filter (·.feature = f) =
    (ledger.holders f).mapIdx fun id n => ⟨n, f, id⟩
  within : ∀ a ∈ ledger.allocations, (a.id : Int) < ledger.capacity.toInt

theorem granted_filter (ledger : Ledger) (n : Node) (f : Feature) :
    (ledger.granted n).filter (·.feature = f) =
      if n.allocates && (ledger.features n).contains f then [⟨n, f, ledger.nextId f⟩] else [] := by
  unfold granted FeatureSet.contains
  cases n.allocates with
  | false => simp
  | true =>
    have apart :
        ((ledger.features n).toList.map fun g => (⟨n, g, ledger.nextId g⟩ : Allocation)).filter
          (·.feature = f) = ((ledger.features n).toList.filter (· = f)).map
            fun g => ⟨n, g, ledger.nextId g⟩ := List.filter_map
    rw [if_pos rfl, apart, FeatureSet.filter_eq]
    by_cases carried : f ∈ (ledger.features n).toList <;> simp [carried]

theorem holders_withPrepared (ledger : Ledger) (n : Node) (f : Feature) :
    (ledger.withPrepared n).holders f =
      ledger.holders f ++ if n.allocates && (ledger.features n).contains f then [n] else [] := by
  have same : ∀ m, (ledger.withPrepared n).features m = ledger.features m := fun _ => rfl
  simp only [holders, same]
  simp only [withPrepared, List.map_append, List.filter_append, List.map_cons, List.map_nil,
    List.filter_cons, List.filter_nil]

namespace Numbered

theorem blank (warnUnused : Bool) (capacity : Int64) :
    (Ledger.blank warnUnused capacity).Numbered := by
  refine ⟨fun _ => ⟨rfl, rfl⟩, List.nodup_nil, ?_, fun _ => rfl, ?_⟩ <;> simp [Ledger.blank]

theorem nextId_eq (numbered : ledger.Numbered) (f : Feature) :
    ledger.nextId f = (ledger.holders f).length := by
  rw [nextId, List.countP_eq_length_filter, numbered.pool, List.length_mapIdx]

theorem withPrepared (numbered : ledger.Numbered) (preparable : ledger.Preparable n) :
    (ledger.withPrepared n).Numbered where
  late := by
    intro early
    have propagated := preparable.propagated
    rw [isPropagated, show ledger.carried = none from early] at propagated
    cases propagated
  distinct := by
    have unknown : n ∉ ledger.prepared.map (·.1) := by
      intro member
      obtain ⟨entry, known, same⟩ := List.mem_map.mp member
      have different := List.lookup_eq_none_iff.mp preparable.new entry known
      simp [same] at different
    rw [Ledger.withPrepared, List.map_append, List.map_singleton]
    refine List.nodup_append.mpr ⟨numbered.distinct, List.nodup_singleton _, ?_⟩
    rintro a member b last rfl
    have same : a = n := List.mem_singleton.mp last
    exact unknown (same ▸ member)
  memo := by
    intro entry member
    rcases List.mem_append.mp member with old | new
    · exact numbered.memo entry old
    · rw [List.mem_singleton.mp new]
      rfl
  pool := by
    intro f
    have split : (ledger.withPrepared n).allocations.filter (·.feature = f) =
        ledger.allocations.filter (·.feature = f) ++ (ledger.granted n).filter (·.feature = f) :=
      List.filter_append ..
    rw [split, numbered.pool, granted_filter, holders_withPrepared, numbered.nextId_eq]
    split
    · rw [List.mapIdx_concat]
    · rw [List.append_nil, List.append_nil]
  within := by
    intro a member
    rcases List.mem_append.mp member with old | new
    · exact numbered.within a old
    · unfold granted at new
      split at new
      · rename_i allocates
        obtain ⟨f, carried, rfl⟩ := List.mem_map.mp new
        have room := preparable.room allocates f carried
        simp only [isExhausted, decide_eq_false_iff_not] at room
        exact Int.not_le.mp room
      · cases new

theorem step (change : ledger.Change after) (numbered : ledger.Numbered) : after.Numbered := by
  cases change with
  | none => exact numbered
  | grow => exact ⟨numbered.late, numbered.distinct, numbered.memo, numbered.pool, numbered.within⟩
  | propagate early =>
    -- Nothing is prepared before the features are known, so no ID can be missing for them.
    obtain ⟨noneReady, noneGiven⟩ := numbered.late early
    refine ⟨?_, ?_, ?_, ?_, ?_⟩ <;> simp [noneReady, noneGiven, holders]
  | prepare preparable => exact numbered.withPrepared preparable

theorem changes (numbered : ledger.Numbered) (changes : Changes ledger after) : after.Numbered :=
  changes.keeps (fun _ _ => step) numbered

theorem mem_allocations (numbered : ledger.Numbered) :
    ⟨n, f, id⟩ ∈ ledger.allocations ↔ (ledger.holders f)[id]? = some n := by
  have pooled : ⟨n, f, id⟩ ∈ ledger.allocations ↔
      ⟨n, f, id⟩ ∈ ledger.allocations.filter (·.feature = f) := by simp
  rw [pooled, numbered.pool, List.mem_mapIdx, List.getElem?_eq_some_iff]
  constructor
  · rintro ⟨place, inside, same⟩
    cases same
    exact ⟨inside, rfl⟩
  · rintro ⟨inside, rfl⟩
    exact ⟨id, inside, rfl⟩

theorem holders_nodup (numbered : ledger.Numbered) (f : Feature) : (ledger.holders f).Nodup :=
  numbered.distinct.filter _

theorem holds_of_id? (numbered : ledger.Numbered) (given : ledger.id? n f = some id) :
    (ledger.holders f)[id]? = some n := by
  obtain ⟨a, found, rfl⟩ := Option.map_eq_some_iff.mp given
  have same := List.find?_some found
  simp only [Bool.and_eq_true, decide_eq_true_eq] at same
  obtain ⟨rfl, rfl⟩ := same
  exact numbered.mem_allocations.mp (List.mem_of_find?_eq_some found)

/-- No node stands at two places, so the first allocation that is found is the only one. -/
theorem id?_eq_some (numbered : ledger.Numbered) :
    ledger.id? n f = some id ↔ (ledger.holders f)[id]? = some n := by
  refine ⟨numbered.holds_of_id?, ?_⟩
  intro holds
  have member := numbered.mem_allocations.mpr holds
  obtain ⟨other, given⟩ : ∃ other, ledger.id? n f = some other := by
    rw [id?, ← Option.isSome_iff_exists, Option.isSome_map, List.find?_isSome]
    exact ⟨_, member, by simp⟩
  obtain ⟨inside, _⟩ := List.getElem?_eq_some_iff.mp holds
  have same : id = other := (List.getElem?_inj inside (numbered.holders_nodup f)).mp
    (holds.trans (numbered.holds_of_id? given).symm)
  rw [same]
  exact given

theorem exists_id?_iff (numbered : ledger.Numbered) :
    (∃ id, ledger.id? n f = some id) ↔ n ∈ ledger.holders f := by
  rw [List.mem_iff_getElem?]
  exact exists_congr fun _ => numbered.id?_eq_some

theorem lookup_iff (numbered : ledger.Numbered) {used : Bool} :
    ledger.prepared.lookup n = some used ↔
      n ∈ ledger.prepared.map (·.1) ∧ used = ledger.isUsed n := by
  have recorded {used : Bool} (known : ledger.prepared.lookup n = some used) :
      (n, used) ∈ ledger.prepared := by
    obtain ⟨before, rest, split, _⟩ := List.lookup_eq_some_iff.mp known
    simp [split]
  constructor
  · intro known
    have member := recorded known
    exact ⟨List.mem_map.mpr ⟨_, member, rfl⟩, numbered.memo _ member⟩
  · rintro ⟨member, rfl⟩
    obtain ⟨entry, inside, rfl⟩ := List.mem_map.mp member
    obtain ⟨memo, known⟩ : ∃ memo, ledger.prepared.lookup entry.1 = some memo := by
      rw [← Option.isSome_iff_exists, List.lookup_isSome_iff]
      exact ⟨entry, inside, beq_self_eq_true entry.1⟩
    exact known.trans (congrArg some (numbered.memo _ (recorded known)))

theorem mem_holders (numbered : ledger.Numbered) :
    n ∈ ledger.holders f ↔
      ledger.prepared.lookup n = some true ∧ n.allocates = true ∧
        f ∈ (ledger.features n).toList := by
  rw [holders, List.mem_filter, numbered.lookup_iff]
  simp only [FeatureSet.contains, Bool.and_eq_true, decide_eq_true_eq]
  constructor
  · rintro ⟨member, allocates, carried⟩
    exact ⟨⟨member, (isUsed_iff.mpr ⟨f, carried⟩).symm⟩, allocates, carried⟩
  · rintro ⟨⟨member, _⟩, allocates, carried⟩
    exact ⟨member, allocates, carried⟩

end Numbered

/-- An ID that is given out stays. -/
theorem Changes.id? (changes : Changes ledger after) (given : ledger.id? n f = some id) :
    after.id? n f = some id := by
  refine changes.keeps (motive := fun next => next.id? n f = some id) ?_ given
  intro before next change known
  cases change with
  | none => exact known
  | grow => exact known
  | propagate => exact known
  | prepare =>
    obtain ⟨a, found, rfl⟩ := Option.map_eq_some_iff.mp known
    rw [Ledger.id?, withPrepared, List.find?_append, found, Option.some_or, Option.map_some]

/-- What is promised about the IDs for `f`, once the `approved` nodes were found to be used. -/
structure Numbering (capacity : Int64) (approved : List Node) (f : Feature) (ledger : Ledger) :
    Prop where
  given : ∀ n, (∃ id, ledger.id? n f = some id) ↔
    n ∈ approved ∧ n.allocates = true ∧ f ∈ (ledger.features n).toList
  distinct : ∀ n m id, ledger.id? n f = some id → ledger.id? m f = some id → n = m
  dense : ∀ id, (∃ n, ledger.id? n f = some id) ↔
    id < (approved.toFinset.filter fun n =>
      n.allocates = true ∧ f ∈ (ledger.features n).toList).card
  within : ∀ n id, ledger.id? n f = some id → (id : Int) < capacity.toInt

theorem Numbered.numbering (numbered : ledger.Numbered) {approved : List Node}
    (known : ∀ n, ledger.prepared.lookup n = some true ↔ n ∈ approved) (f : Feature) :
    Numbering ledger.capacity approved f ledger where
  given n := by rw [numbered.exists_id?_iff, numbered.mem_holders, known]
  distinct := by
    intro n m id atN atM
    rw [numbered.id?_eq_some] at atN atM
    exact Option.some.inj (atN.symm.trans atM)
  dense := by
    intro id
    have same : (approved.toFinset.filter fun n =>
        n.allocates = true ∧ f ∈ (ledger.features n).toList) = (ledger.holders f).toFinset := by
      ext n
      simp [numbered.mem_holders, known]
    rw [same, List.toFinset_card_of_nodup (numbered.holders_nodup f)]
    simp only [numbered.id?_eq_some, List.getElem?_eq_some_iff]
    constructor
    · rintro ⟨n, inside, _⟩
      exact inside
    · intro inside
      exact ⟨_, inside, rfl⟩
  within := by
    intro n id given
    exact numbered.within _ (numbered.mem_allocations.mpr (numbered.holds_of_id? given))

theorem numbering_operateAll (warnUnused : Bool) (capacity : Int64) (operations : List Operation)
    (f : Feature) :
    Numbering capacity ((blank warnUnused capacity).approvals operations) f
      ((blank warnUnused capacity).operateAll operations) := by
  have changes := (blank warnUnused capacity).operateAll_changes operations
  have numbered := (Numbered.blank warnUnused capacity).changes changes
  have numbering := numbered.numbering (fun _ => mem_approvals_blank) f
  rwa [changes.capacity] at numbering

/-- A node that is found to be used has all its IDs from then on, since it has all its features. -/
theorem Numbered.id?_of_approved (numbered : ledger.Numbered) (changes : Changes ledger after)
    (approved : ledger.prepared.lookup n = some true) (given : after.id? n f = some id) :
    ledger.id? n f = some id := by
  have propagated : ledger.carried ≠ none := by
    intro early
    rw [(numbered.late early).1] at approved
    cases approved
  have numberedLater := numbered.changes changes
  have member := numberedLater.exists_id?_iff.mp ⟨id, given⟩
  rw [numberedLater.mem_holders, changes.features propagated] at member
  obtain ⟨early, before⟩ :=
    numbered.exists_id?_iff.mpr (numbered.mem_holders.mpr ⟨approved, member.2⟩)
  have same := Option.some.inj ((changes.id? before).symm.trans given)
  rwa [same] at before

/-- The IDs below one that is given out are taken, so a later node gets a greater one. -/
theorem Numbering.lt_of_later {capacity : Int64} {approved all : List Node} {i j : Nat}
    (before : Numbering capacity approved f ledger) (later : Numbering capacity all f after)
    (changes : Changes ledger after) (first : ledger.id? n f = some i) (second : m ∉ approved)
    (given : after.id? m f = some j) : i < j := by
  have taken := (before.dense i).mp ⟨n, first⟩
  refine Nat.lt_of_not_le ?_
  intro below
  obtain ⟨k, atJ⟩ := (before.dense j).mpr (by omega)
  have same := later.distinct k m j (changes.id? atJ) given
  rw [same] at atJ
  exact second ((before.given m).mp ⟨j, atJ⟩).1

/-- Over every run of operations, failing ones included, the IDs for a feature are the numbers from
zero on, one for each node that carries the feature, needs IDs and was found to be used. No ID
reaches the capacity. IDs stay, and a node that was found to be used when another was not yet has
the smaller one. -/
theorem numbering_exact (warnUnused : Bool) (capacity : Int64) (operations more : List Operation)
    (f : Feature) :
    Numbering capacity ((blank warnUnused capacity).approvals operations) f
        ((blank warnUnused capacity).operateAll operations) ∧
      (∀ n id, ((blank warnUnused capacity).operateAll operations).id? n f = some id →
        ((blank warnUnused capacity).operateAll (operations ++ more)).id? n f = some id) ∧
      ∀ n m, n ∈ (blank warnUnused capacity).approvals operations →
        m ∉ (blank warnUnused capacity).approvals operations →
        ∀ i j, ((blank warnUnused capacity).operateAll (operations ++ more)).id? n f = some i →
          ((blank warnUnused capacity).operateAll (operations ++ more)).id? m f = some j →
          i < j := by
  have before := numbering_operateAll warnUnused capacity operations f
  have later := numbering_operateAll warnUnused capacity (operations ++ more) f
  have numbered := (Numbered.blank warnUnused capacity).changes (operateAll_changes _ operations)
  rw [operateAll_append] at later ⊢
  have changes := ((blank warnUnused capacity).operateAll operations).operateAll_changes more
  refine ⟨before, fun _ _ => changes.id?, ?_⟩
  intro n m first second i j atN atM
  have early := numbered.id?_of_approved changes (mem_approvals_blank.mpr first) atN
  exact before.lt_of_later later changes early second atM

end Ledger

end Grf
