import Mathlib

/-!
# Merkle registers

A Merkle register holds nodes under their hashes; a node holds a value and the hashes of the
nodes it supersedes, its children. `MerkleReg` is the interface of such a register together
with its documented behaviour, stated through `visible`, the map of the nodes whose children
have all been seen. Programs use the operations; proofs use the laws.

A register grown by applying only nodes with visible children (`MerkleReg.Grown`) keeps each
node under its own hash and is acyclic: its hashes can be ranked so that a child ranks below
the nodes that supersede it.
-/

namespace Crdt

open Std

/-- A value with the hashes of the nodes it supersedes. -/
@[ext]
structure Node (H V : Type) [Ord H] where
  children : ExtTreeSet H
  value : V

/-- A Merkle register over hashes `H` and values `V`: its operations and their documented
behaviour. Lists of nodes are in ascending order of the hashes. -/
structure MerkleReg (H V : Type) [Ord H] [TransOrd H] where
  Reg : Type
  hash : Node H V → H
  new : Reg
  apply : Reg → Node H V → Reg
  read : Reg → List (Node H V)
  node : Reg → H → Option (Node H V)
  children : Reg → H → List (Node H V)
  parents : Reg → H → List (Node H V)
  allNodes : Reg → List (Node H V)
  numOrphans : Reg → Nat
  visible : Reg → ExtTreeMap H (Node H V)
  hash_injective : Function.Injective hash
  visible_new : visible new = ∅
  numOrphans_new : numOrphans new = 0
  /-- A node with visible children becomes visible; a node seen before changes nothing. -/
  visible_apply : ∀ {reg node}, numOrphans reg = 0 → (∀ child ∈ node.children, child ∈ visible reg) →
    visible (apply reg node) = (visible reg).insertIfNew (hash node) node
  numOrphans_apply : ∀ {reg node}, numOrphans reg = 0 →
    (∀ child ∈ node.children, child ∈ visible reg) → numOrphans (apply reg node) = 0
  node_eq : ∀ {reg}, numOrphans reg = 0 → ∀ hash, node reg hash = (visible reg)[hash]?
  /-- Reading returns the visible nodes that no visible node names as a child. -/
  read_eq : ∀ {reg}, numOrphans reg = 0 → read reg =
    ((visible reg).toList.filter fun entry =>
      (visible reg).toList.all fun other => !other.2.children.contains entry.1).map Prod.snd
  children_eq : ∀ {reg}, numOrphans reg = 0 → ∀ hash, children reg hash =
    match (visible reg)[hash]? with
    | none => []
    | some found => found.children.toList.filterMap fun child => (visible reg)[child]?
  parents_eq : ∀ {reg}, numOrphans reg = 0 → ∀ hash, parents reg hash =
    ((visible reg).toList.filter fun entry => entry.2.children.contains hash).map Prod.snd
  allNodes_eq : ∀ {reg}, numOrphans reg = 0 → allNodes reg = (visible reg).toList.map Prod.snd
  eq_of_visible : ∀ {reg other}, numOrphans reg = 0 → numOrphans other = 0 →
    visible reg = visible other → reg = other

namespace MerkleReg

variable {H V : Type} [Ord H] [TransOrd H] (M : MerkleReg H V)

/-- Registers grown from the empty one by nodes whose children are visible. -/
inductive Grown : M.Reg → Prop
  | new : Grown M.new
  | apply {reg : M.Reg} {node : Node H V} : Grown reg →
      (∀ child ∈ node.children, child ∈ M.visible reg) → Grown (M.apply reg node)

variable {M} {reg other : M.Reg} {node : Node H V} {hash : H}

section

variable (grown : M.Grown reg)
include grown

theorem Grown.numOrphans : M.numOrphans reg = 0 := by
  induction grown with
  | new => exact M.numOrphans_new
  | apply _ seen ih => exact M.numOrphans_apply ih seen

theorem Grown.visible_apply (seen : ∀ child ∈ node.children, child ∈ M.visible reg) :
    M.visible (M.apply reg node) = (M.visible reg).insertIfNew (M.hash node) node :=
  M.visible_apply grown.numOrphans seen

theorem Grown.ext (grown' : M.Grown other)
    (same : M.visible reg = M.visible other) : reg = other :=
  M.eq_of_visible grown.numOrphans grown'.numOrphans same

theorem Grown.mem_apply
    (seen : ∀ child ∈ node.children, child ∈ M.visible reg) (old : hash ∈ M.visible reg) :
    hash ∈ M.visible (M.apply reg node) := by
  rw [grown.visible_apply seen, ExtTreeMap.mem_insertIfNew]
  exact Or.inr old

theorem Grown.length_allNodes : (M.allNodes reg).length = (M.visible reg).size := by
  rw [M.allNodes_eq grown.numOrphans, List.length_map, ExtTreeMap.length_toList]

theorem Grown.children_singleton {child : H} {below : Node H V}
    (found : (M.visible reg)[hash]? = some node) (one : node.children = {child})
    (stored : (M.visible reg)[child]? = some below) : M.children reg hash = [below] := by
  rw [M.children_eq grown.numOrphans, found]
  have listed : ({child} : ExtTreeSet H).toList = [child] := rfl
  simp only [one, listed, List.filterMap_cons, stored, List.filterMap_nil]

end

def Superseded (reg : M.Reg) (hash : H) : Prop :=
  ∃ (key : H) (parent : Node H V), (M.visible reg)[key]? = some parent ∧ hash ∈ parent.children

theorem not_superseded_new : ¬ M.Superseded M.new hash := by
  rintro ⟨key, parent, stored, -⟩
  simp [M.visible_new] at stored

section Laws

variable [LawfulEqOrd H]

theorem Grown.keyed (grown : M.Grown reg) (found : (M.visible reg)[hash]? = some node) : M.hash node = hash := by
  induction grown generalizing hash node with
  | new => simp [M.visible_new] at found
  | apply grown seen ih =>
    rw [grown.visible_apply seen, ExtTreeMap.getElem?_insertIfNew] at found
    split at found
    · rename_i fresh
      obtain rfl := Option.some.inj found
      exact Std.compare_eq_iff_eq.mp fresh.1
    · exact ih found

/-- Looking up a hash after one more node: a node seen before is found again, because no
other node has its hash. -/
theorem Grown.getElem?_apply [DecidableEq H] (grown : M.Grown reg)
    (seen : ∀ child ∈ node.children, child ∈ M.visible reg) (hash : H) : (M.visible (M.apply reg node))[hash]? =
      if M.hash node = hash then some node else (M.visible reg)[hash]? := by
  rw [grown.visible_apply seen, ExtTreeMap.getElem?_insertIfNew]
  by_cases same : M.hash node = hash
  · subst same
    by_cases old : M.hash node ∈ M.visible reg
    · have found := ExtTreeMap.getElem?_eq_some_getElem old
      have stored := M.hash_injective (grown.keyed found)
      simp [old, stored]
    · simp [old]
  · simp [same]

theorem Grown.child_visible (grown : M.Grown reg) (found : (M.visible reg)[hash]? = some node)
    {child : H} (named : child ∈ node.children) : child ∈ M.visible reg := by
  classical
  induction grown generalizing hash node with
  | new => simp [M.visible_new] at found
  | apply grown seen ih =>
    rw [grown.getElem?_apply seen] at found
    split at found
    · obtain rfl := Option.some.inj found
      exact grown.mem_apply seen (seen child named)
    · exact grown.mem_apply seen (ih found named)

/-- A ranking of the visible hashes below a bound, children first. -/
structure Ranking (reg : M.Reg) (rank : H → Nat) : Prop where
  bound : ∀ {hash}, hash ∈ M.visible reg → rank hash < (M.visible reg).size
  child : ∀ {hash node child}, (M.visible reg)[hash]? = some node → child ∈ node.children →
    rank child < rank hash

variable (grown : M.Grown reg)
include grown

theorem Grown.exists_ranking : ∃ rank, M.Ranking reg rank := by
  classical
  induction grown with
  | new => exact ⟨fun _ => 0, by simp [M.visible_new], by simp [M.visible_new]⟩
  | @apply reg node grown seen ih =>
    obtain ⟨rank, bound, child⟩ := ih
    by_cases old : M.hash node ∈ M.visible reg
    · -- A node seen before changes nothing.
      have same : M.visible (M.apply reg node) = M.visible reg := by
        rw [grown.visible_apply seen]
        apply ExtTreeMap.ext_getElem?
        intro hash
        rw [ExtTreeMap.getElem?_insertIfNew]
        simp [old]
      exact ⟨rank, by rw [same]; exact bound, by rw [same]; exact child⟩
    · have size : (M.visible (M.apply reg node)).size = (M.visible reg).size + 1 := by
        rw [grown.visible_apply seen, ExtTreeMap.size_insertIfNew, if_neg old]
      refine ⟨fun hash => if hash = M.hash node then (M.visible reg).size else rank hash, ?_, ?_⟩
      · intro hash mem
        rw [grown.visible_apply seen, ExtTreeMap.mem_insertIfNew, Std.compare_eq_iff_eq] at mem
        rw [size]
        split
        · exact Nat.lt_succ_self _
        · rename_i other
          have inside := bound (mem.resolve_left fun same => other same.symm)
          omega
      · intro hash found child' at_hash named
        rw [grown.getElem?_apply seen] at at_hash
        split at at_hash
        · rename_i same
          obtain rfl := Option.some.inj at_hash
          have inside := seen child' named
          have differs : child' ≠ M.hash node := fun same => old (same ▸ inside)
          simpa [← same, differs] using bound inside
        · rename_i differs
          have inside := grown.child_visible at_hash named
          have other : child' ≠ M.hash node := fun same => old (same ▸ inside)
          simpa [other, Ne.symm differs] using child at_hash named

theorem Grown.mem_read : node ∈ M.read reg ↔ ∃ hash : H, (M.visible reg)[hash]? = some node ∧
      ∀ (hash' : H) (node' : Node H V), (M.visible reg)[hash']? = some node' → hash ∉ node'.children := by
  rw [M.read_eq grown.numOrphans]
  simp only [List.mem_map, List.mem_filter, Prod.exists, exists_eq_right, List.all_eq_true,
    Prod.forall, ExtTreeMap.mem_toList_iff_getElem?_eq_some, Bool.not_eq_true',
    ← Bool.not_eq_true, ExtTreeSet.contains_iff_mem]

theorem Grown.getElem?_hash (visible : M.hash node ∈ M.visible reg) :
    (M.visible reg)[M.hash node]? = some node := by
  have found := ExtTreeMap.getElem?_eq_some_getElem visible
  rw [found, M.hash_injective (grown.keyed found)]

theorem Grown.mem_read_iff :
    node ∈ M.read reg ↔ M.hash node ∈ M.visible reg ∧ ¬ M.Superseded reg (M.hash node) := by
  rw [grown.mem_read]
  constructor
  · rintro ⟨hash, found, unnamed⟩
    obtain rfl := grown.keyed found
    refine ⟨ExtTreeMap.mem_iff_isSome_getElem?.mpr (by rw [found]; rfl), ?_⟩
    rintro ⟨key, parent, stored, named⟩
    exact unnamed key parent stored named
  · rintro ⟨visible, current⟩
    exact ⟨M.hash node, grown.getElem?_hash visible, fun key parent stored named =>
      current ⟨key, parent, stored, named⟩⟩

theorem Grown.visible_of_superseded (superseded : M.Superseded reg hash) :
    hash ∈ M.visible reg := by
  obtain ⟨key, parent, stored, named⟩ := superseded
  exact grown.child_visible stored named

theorem Grown.superseded_apply (seen : ∀ child ∈ node.children, child ∈ M.visible reg) :
    M.Superseded (M.apply reg node) hash ↔ M.Superseded reg hash ∨ hash ∈ node.children := by
  classical
  constructor
  · rintro ⟨key, parent, stored, named⟩
    rw [grown.getElem?_apply seen] at stored
    split at stored
    · obtain rfl := Option.some.inj stored
      exact Or.inr named
    · exact Or.inl ⟨key, parent, stored, named⟩
  · rintro (⟨key, parent, stored, named⟩ | named)
    · refine ⟨key, parent, ?_, named⟩
      rw [grown.getElem?_apply seen]
      split
      · rename_i same
        rw [← M.hash_injective (same.trans (grown.keyed stored).symm)]
      · exact stored
    · refine ⟨M.hash node, node, ?_, named⟩
      rw [grown.getElem?_apply seen, if_pos rfl]

theorem Grown.hash_notMem_children
    (seen : ∀ child ∈ node.children, child ∈ M.visible reg) : M.hash node ∉ node.children := by
  intro named
  obtain ⟨rank, ranking⟩ := grown.exists_ranking
  exact Nat.lt_irrefl _ (ranking.child (grown.getElem?_hash (seen _ named)) named)

/-- What is read after one more node: the node, unless it has been superseded before, and the nodes that
were read and that it does not name. -/
theorem Grown.mem_read_apply
    (seen : ∀ child ∈ node.children, child ∈ M.visible reg) {shown : Node H V} : shown ∈ M.read (M.apply reg node) ↔
      shown = node ∧ ¬ M.Superseded reg (M.hash node) ∨
        shown ∈ M.read reg ∧ M.hash shown ∉ node.children := by
  have visibleIff : M.hash shown ∈ M.visible (M.apply reg node) ↔
      shown = node ∨ M.hash shown ∈ M.visible reg := by
    rw [grown.visible_apply seen, ExtTreeMap.mem_insertIfNew, Std.compare_eq_iff_eq, eq_comm,
      M.hash_injective.eq_iff]
  rw [(Grown.apply grown seen).mem_read_iff, grown.mem_read_iff, visibleIff, grown.superseded_apply seen,
    not_or, or_and_right, and_assoc]
  refine or_congr ⟨?_, ?_⟩ Iff.rfl
  · rintro ⟨rfl, current, -⟩
    exact ⟨rfl, current⟩
  · rintro ⟨rfl, current⟩
    exact ⟨rfl, current, grown.hash_notMem_children seen⟩

theorem Grown.mem_parents : node ∈ M.parents reg hash ↔
      ∃ hash' : H, (M.visible reg)[hash']? = some node ∧ hash ∈ node.children := by
  rw [M.parents_eq grown.numOrphans]
  simp [ExtTreeMap.mem_toList_iff_getElem?_eq_some]

theorem Grown.children_empty (found : (M.visible reg)[hash]? = some node)
    (none : node.children = ∅) : M.children reg hash = [] := by
  rw [M.children_eq grown.numOrphans, found]
  simp [none]

theorem Grown.mem_allNodes :
    node ∈ M.allNodes reg ↔ ∃ hash : H, (M.visible reg)[hash]? = some node := by
  rw [M.allNodes_eq grown.numOrphans]
  simp [ExtTreeMap.mem_toList_iff_getElem?_eq_some]

end Laws

/-- A register kept as the map of its visible nodes. A node with an unseen child is ignored:
this register serves programs that apply no such node. -/
def ofHash [LawfulEqOrd H] (hash : Node H V → H) (injective : Function.Injective hash) :
    MerkleReg H V where
  Reg := ExtTreeMap H (Node H V)
  hash := hash
  new := ∅
  apply reg node :=
    if node.children.toList.all reg.contains then reg.insertIfNew (hash node) node else reg
  read reg :=
    (reg.toList.filter fun entry =>
      reg.toList.all fun other => !other.2.children.contains entry.1).map Prod.snd
  node reg hash := (reg : ExtTreeMap H (Node H V))[hash]?
  children reg hash :=
    match (reg : ExtTreeMap H (Node H V))[hash]? with
    | none => []
    | some (found : Node H V) => found.children.toList.filterMap fun child => reg[child]?
  parents reg hash := (reg.toList.filter fun entry => entry.2.children.contains hash).map Prod.snd
  allNodes reg := reg.toList.map Prod.snd
  numOrphans _ := 0
  visible reg := reg
  hash_injective := injective
  visible_new := rfl
  numOrphans_new := rfl
  visible_apply := by
    intro reg node _ seen
    have all : node.children.toList.all reg.contains = true := by
      simpa [List.all_eq_true, ExtTreeSet.mem_toList] using seen
    simp only [all, ↓reduceIte]
  numOrphans_apply := fun _ _ => rfl
  node_eq := fun _ _ => rfl
  read_eq := fun _ => rfl
  children_eq := fun _ _ => rfl
  parents_eq := fun _ _ => rfl
  allNodes_eq := fun _ => rfl
  eq_of_visible := fun _ _ same => same

end MerkleReg

end Crdt
