import Grf.Compilation
import Mathlib.Data.List.Nodup
import Mathlib.Logic.Relation

namespace Grf.Compilation

variable {c after : Compilation} {i j : Nat} {b : Block} {n : Node}

theorem block?_eq_some : c.block? i = some b ↔ c.declarations[i]? = some (.block b) := by
  unfold block?
  split
  · rename_i found
    simp [found]
  · rename_i other
    simp only [reduceCtorEq, false_iff]
    exact other b

theorem node?_eq_some : c.node? i = some n ↔ ∃ b, c.block? i = some b ∧ b.node i = n := by
  simp only [node?, Option.map_eq_some_iff]

theorem node?_of_block? (found : c.block? i = some b) : c.node? i = some (b.node i) :=
  node?_eq_some.mpr ⟨b, found, rfl⟩

theorem key_of_node? (found : c.node? i = some n) : n.key = i := by
  obtain ⟨b, _, rfl⟩ := node?_eq_some.mp found
  rfl

theorem node?_injective (atI : c.node? i = some n) (atJ : c.node? j = some n) : i = j :=
  (key_of_node? atI).symm.trans (key_of_node? atJ)

theorem block?_congr (declarations : after.declarations = c.declarations) (i : Nat) :
    after.block? i = c.block? i := by
  unfold block?
  rw [declarations]

theorem node?_congr (declarations : after.declarations = c.declarations) (i : Nat) :
    after.node? i = c.node? i :=
  congrArg _ (block?_congr declarations i)

/-- Where a block is replaced by a block, no other declaration changes. -/
theorem block?_update (found : c.block? i = some b) (b' : Block) (j : Nat) :
    (c.update i (.block b')).block? j = if j = i then some b' else c.block? j := by
  obtain ⟨inside, _⟩ := List.getElem?_eq_some_iff.mp (block?_eq_some.mp found)
  unfold block? update
  by_cases same : j = i
  · subst same
    simp [inside]
  · simp [List.getElem?_set_ne (Ne.symm same), same]

theorem node?_update (found : c.block? i = some b) {b' : Block} (same : b'.node i = b.node i)
    (j : Nat) : (c.update i (.block b')).node? j = c.node? j := by
  unfold node?
  rw [block?_update found]
  split
  · rename_i here
    subst here
    simp [found, same]
  · rfl

/-- `i` is the declaration of the script that has the given name. Templates have their names apart
from all others. -/
def Names (c : Compilation) (i : Nat) (name : String) : Prop :=
  i ∈ c.script ∧ ∃ n, c.node? i = some n ∧ n.name.name = name

/-- The declaration `i` of the script has a reference that names `j`. -/
def Refers (c : Compilation) (i j : Nat) : Prop :=
  i ∈ c.script ∧ ∃ b, c.block? i = some b ∧ ∃ r ∈ b.references, c.Names j r.target.name

/-- One of the direct uses, with feature `f`, names `i` or a declaration from which references lead
to `i`. -/
def ReachedWith (c : Compilation) (uses : List (Identifier × Feature)) (i : Nat) (f : Feature) :
    Prop :=
  ∃ id root, (id, f) ∈ uses ∧ c.Names root id.name ∧ Relation.ReflTransGen c.Refers root i

/-- The ledger knows the blocks of the script, in order, and no two of them have one name. -/
structure Registered (c : Compilation) : Prop where
  nodes : c.ledger.nodes = c.script.filterMap c.node?
  names : (c.ledger.nodes.map fun n => n.name.name).Nodup

namespace Registered

theorem distinct (registered : c.Registered) : (c.script.filterMap c.node?).Nodup := by
  rw [← registered.nodes]
  exact registered.names.of_map

theorem mem_nodes (registered : c.Registered) :
    n ∈ c.ledger.nodes ↔ ∃ i ∈ c.script, c.node? i = some n := by
  rw [registered.nodes, List.mem_filterMap]

/-- The ledger finds by name what the script declares under that name. -/
theorem find?_eq_some (registered : c.Registered) {name : String} :
    c.ledger.find? name = some n ↔ ∃ i, c.Names i name ∧ c.node? i = some n := by
  constructor
  · intro found
    obtain ⟨i, member, atI⟩ := registered.mem_nodes.mp (List.mem_of_find?_eq_some found)
    have named : n.name.name = name := by simpa using List.find?_some found
    exact ⟨i, ⟨member, n, atI, named⟩, atI⟩
  · rintro ⟨i, ⟨member, m, atM, named⟩, atI⟩
    cases atM.symm.trans atI
    have known : n ∈ c.ledger.nodes := registered.mem_nodes.mpr ⟨i, member, atI⟩
    obtain ⟨m, found⟩ : ∃ m, c.ledger.find? name = some m := by
      rw [← Option.isSome_iff_exists, Ledger.find?, List.find?_isSome]
      exact ⟨n, known, by simpa using named⟩
    have sameName : m.name.name = name := by simpa using List.find?_some found
    rw [found, List.inj_on_of_nodup_map registered.names (List.mem_of_find?_eq_some found) known
      (sameName.trans named.symm)]

/-- Only nodes, numbers of the script and names matter. -/
theorem congr (registered : c.Registered) (script : after.script = c.script)
    (nodes : after.ledger.nodes = c.ledger.nodes) (node? : ∀ i, after.node? i = c.node? i) :
    after.Registered := by
  refine ⟨?_, ?_⟩
  · rw [nodes, script, registered.nodes, funext node?]
  · rw [nodes]
    exact registered.names

end Registered

end Grf.Compilation
