import SafeNetwork.Library.MerkleReg

/-!
# Merkle registers open to any order

Nodes may reach a Merkle register before the nodes they supersede. Such a node is an orphan: the
register keeps it and shows it once all its children are shown. `OpenMerkleReg` adds the documented
behaviour of a register with orphans to `MerkleReg`: its state depends only on the set of nodes
applied, whatever their order.
-/

namespace Crdt

open Std

/-- A node has been applied, and so have its children, down to the last. -/
inductive Seen {H V : Type} [Ord H] [TransOrd H] (hash : Node H V → H) (applied : Finset H) :
    Node H V → Prop
  | intro {node : Node H V} (below : H → Node H V) : hash node ∈ applied →
      (∀ child ∈ node.children, hash (below child) = child) →
      (∀ child ∈ node.children, Seen hash applied (below child)) → Seen hash applied node

section Seen

variable {H V : Type} [Ord H] [TransOrd H] {hash : Node H V → H} {applied more : Finset H}
  {node : Node H V}

theorem Seen.mem (seen : Seen hash applied node) : hash node ∈ applied := by
  cases seen with
  | intro below mem named inside => exact mem

theorem Seen.mono (grown : applied ⊆ more) (seen : Seen hash applied node) : Seen hash more node := by
  induction seen with
  | intro below mem named inside ih => exact .intro below (grown mem) named ih

end Seen

/-- A Merkle register with orphans: the operations of `MerkleReg` and the documented behaviour in
terms of the hashes of all nodes applied. -/
structure OpenMerkleReg (H V : Type) [Ord H] [TransOrd H] [DecidableEq H] extends
    MerkleReg H V where
  numNodes : Reg → Nat
  applied : Reg → Finset H
  applied_new : applied new = ∅
  applied_apply : ∀ reg node, applied (apply reg node) = insert (hash node) (applied reg)
  numNodes_add_numOrphans : ∀ reg, numNodes reg + numOrphans reg = (applied reg).card
  eq_of_applied : ∀ {reg other}, applied reg = applied other → reg = other
  /-- Reading returns the seen nodes that no seen node names as a child. -/
  mem_read : ∀ {reg node}, node ∈ read reg ↔ Seen hash (applied reg) node ∧
    ∀ other, Seen hash (applied reg) other → hash node ∉ other.children

namespace OpenMerkleReg

variable {H V : Type} [Ord H] [TransOrd H] [DecidableEq H] (M : OpenMerkleReg H V)
  {reg more : M.Reg} {node : Node H V}

/-- A node that is read is still read when more nodes have been applied, unless one of them all
names it as a child. -/
theorem mem_read_of_subset (grown : M.applied reg ⊆ M.applied more) (shown : node ∈ M.read reg)
    (unnamed : ∀ other, M.hash other ∈ M.applied more → M.hash node ∉ other.children) : node ∈ M.read more := by
  obtain ⟨seen, -⟩ := M.mem_read.mp shown
  exact M.mem_read.mpr ⟨seen.mono grown, fun other known => unnamed other known.mem⟩

/-! ## A register of all applied nodes -/

section OfRank

variable [LawfulEqOrd H] {hash : Node H V → H} {rank : H → Nat}
  {known : ExtTreeMap H (Node H V)} {fuel : Nat} {key : H}

def seenWithin (hash : Node H V → H) (known : ExtTreeMap H (Node H V)) : Nat → Node H V → Bool
  | 0, _ => false
  | fuel + 1, node =>
    known.contains (hash node) &&
      node.children.toList.all fun child => known[child]?.any (seenWithin hash known fuel)

def Keyed (hash : Node H V → H) (known : ExtTreeMap H (Node H V)) : Prop :=
  ∀ (key : H) (node : Node H V), known[key]? = some node → hash node = key

theorem seenWithin_iff (injective : Function.Injective hash) (keyed : Keyed hash known)
    (descends : ∀ node : Node H V, ∀ child ∈ node.children, rank child < rank (hash node))
    (deep : rank (hash node) < fuel) :
    seenWithin hash known fuel node = true ↔ Seen hash known.keys.toFinset node := by
  induction fuel generalizing node with
  | zero => omega
  | succ fuel ih =>
    have found : ∀ child : H, (known[child]?.any (seenWithin hash known fuel) = true ↔
        ∃ below, known[child]? = some below ∧ seenWithin hash known fuel below = true) := by
      intro child
      cases known[child]? with
      | none => simp
      | some below => simp
    simp only [seenWithin, Bool.and_eq_true, ExtTreeMap.contains_iff_mem, List.all_eq_true,
      ExtTreeSet.mem_toList, found]
    constructor
    · rintro ⟨mem, children⟩
      have each : ∀ child : H, ∃ below, child ∈ node.children →
          known[child]? = some below ∧ seenWithin hash known fuel below = true := by
        intro child
        by_cases named : child ∈ node.children
        · obtain ⟨below, stored⟩ := children child named
          exact ⟨below, fun _ => stored⟩
        · exact ⟨node, fun other => absurd other named⟩
      choose below stored using each
      refine .intro below (by simpa using mem) (fun child named => ?_) (fun child named => ?_)
      · exact keyed child _ (stored child named).1
      · have name := keyed child _ (stored child named).1
        have less := descends node child named
        exact (ih (by rw [name]; omega)).mp (stored child named).2
    · intro seen
      obtain ⟨below, mem, named, inside⟩ := seen
      refine ⟨by simpa using mem, fun child isChild => ⟨below child, ?_, ?_⟩⟩
      · have stored : child ∈ known := by
          have inner := (inside child isChild).mem
          rw [named child isChild] at inner
          simpa using inner
        have looked := ExtTreeMap.getElem?_eq_some_getElem stored
        rw [looked, injective ((keyed child _ looked).trans (named child isChild).symm)]
      · have less := descends node child isChild
        exact (ih (by rw [named child isChild]; omega)).mpr (inside child isChild)

def seenNodes (hash : Node H V → H) (rank : H → Nat) (known : ExtTreeMap H (Node H V)) :
    ExtTreeMap H (Node H V) :=
  known.filter fun key node => seenWithin hash known (rank key + 1) node

theorem getElem?_seenNodes (injective : Function.Injective hash) (keyed : Keyed hash known)
    (descends : ∀ node : Node H V, ∀ child ∈ node.children, rank child < rank (hash node)) :
    (seenNodes hash rank known)[key]? = some node ↔
      known[key]? = some node ∧ Seen hash known.keys.toFinset node := by
  rw [seenNodes, ExtTreeMap.getElem?_filter', Option.filter_eq_some_iff]
  apply and_congr_right
  intro stored
  rw [← keyed key node stored]
  exact seenWithin_iff injective keyed descends (Nat.lt_succ_self _)

omit [DecidableEq H] [LawfulEqOrd H] in
theorem keyed_empty (hash : Node H V → H) : Keyed hash (∅ : ExtTreeMap H (Node H V)) := by
  intro key node stored
  simp at stored

omit [DecidableEq H] in
theorem Keyed.insertIfNew (keyed : Keyed hash known) (node : Node H V) :
    Keyed hash (known.insertIfNew (hash node) node) := by
  intro key found stored
  rw [ExtTreeMap.getElem?_insertIfNew] at stored
  split at stored
  · rename_i fresh
    obtain rfl := Option.some.inj stored
    exact Std.compare_eq_iff_eq.mp fresh.1
  · exact keyed key found stored

omit [DecidableEq H] [LawfulEqOrd H] in
theorem seenNodes_eq (full : known.size - (seenNodes hash rank known).size = 0) :
    seenNodes hash rank known = known := by
  have most : (seenNodes hash rank known).size ≤ known.size := ExtTreeMap.size_filter_le_size
  apply ExtTreeMap.filter_eq_self_iff.mpr
  exact ExtTreeMap.size_filter_eq_size_iff.mp (show (seenNodes hash rank known).size = known.size by omega)

theorem seenNodes_insertIfNew (injective : Function.Injective hash) (keyed : Keyed hash known)
    (descends : ∀ node : Node H V, ∀ child ∈ node.children, rank child < rank (hash node))
    (full : seenNodes hash rank known = known) (children : ∀ child ∈ node.children, child ∈ known) :
    seenNodes hash rank (known.insertIfNew (hash node) node) = known.insertIfNew (hash node) node := by
  have grown : known.keys.toFinset ⊆ (known.insertIfNew (hash node) node).keys.toFinset := by
    intro key
    simp only [List.mem_toFinset, ExtTreeMap.mem_keys, ExtTreeMap.mem_insertIfNew]
    exact Or.inr
  have old : ∀ (key : H) (other : Node H V), known[key]? = some other →
      Seen hash known.keys.toFinset other := by
    intro key other stored
    exact ((getElem?_seenNodes injective keyed descends).mp (by rw [full]; exact stored)).2
  apply ExtTreeMap.ext_getElem?
  intro key
  ext other
  rw [getElem?_seenNodes injective (keyed.insertIfNew node) descends]
  refine ⟨fun both => both.1, fun stored => ⟨stored, ?_⟩⟩
  rw [ExtTreeMap.getElem?_insertIfNew] at stored
  split at stored
  · obtain rfl := Option.some.inj stored
    have below : ∀ child, ∃ under, child ∈ node.children → known[child]? = some under := by
      intro child
      by_cases named : child ∈ node.children
      · exact ⟨_, fun _ => ExtTreeMap.getElem?_eq_some_getElem (children child named)⟩
      · exact ⟨node, fun isChild => absurd isChild named⟩
    choose under found using below
    refine .intro under ?_ (fun child named => keyed child _ (found child named))
      (fun child named => (old child _ (found child named)).mono grown)
    simp [ExtTreeMap.mem_insertIfNew]
  · exact (old key other stored).mono grown

/-- A register kept as the map of all nodes applied, for a hash whose ranks descend to the
children. -/
def ofRank (hash : Node H V → H) (injective : Function.Injective hash) (rank : H → Nat)
    (descends : ∀ node : Node H V, ∀ child ∈ node.children, rank child < rank (hash node)) :
    OpenMerkleReg H V where
  Reg := { known : ExtTreeMap H (Node H V) // Keyed hash known }
  hash := hash
  new := ⟨∅, keyed_empty hash⟩
  apply reg node := ⟨reg.1.insertIfNew (hash node) node, reg.2.insertIfNew node⟩
  read reg :=
    ((seenNodes hash rank reg.1).toList.filter fun entry =>
      (seenNodes hash rank reg.1).toList.all fun other =>
        !other.2.children.contains entry.1).map Prod.snd
  node reg hash := (reg.1 : ExtTreeMap H (Node H V))[hash]?
  children reg key :=
    match (seenNodes hash rank reg.1)[key]? with
    | none => []
    | some found => found.children.toList.filterMap fun child => (seenNodes hash rank reg.1)[child]?
  parents reg key :=
    ((seenNodes hash rank reg.1).toList.filter fun entry => entry.2.children.contains key).map Prod.snd
  allNodes reg := (seenNodes hash rank reg.1).toList.map Prod.snd
  numOrphans reg := reg.1.size - (seenNodes hash rank reg.1).size
  visible reg := seenNodes hash rank reg.1
  hash_injective := injective
  visible_new := ExtTreeMap.filter_eq_empty_iff.mpr (by simp)
  numOrphans_new := Nat.zero_sub _
  visible_apply := by
    intro reg node full children
    have all := seenNodes_eq full
    rw [all] at children ⊢
    exact seenNodes_insertIfNew injective reg.2 descends all children
  numOrphans_apply := by
    intro reg node full children
    have all := seenNodes_eq full
    rw [all] at children
    rw [seenNodes_insertIfNew injective reg.2 descends all children]
    exact Nat.sub_self _
  node_eq := fun full key => by rw [seenNodes_eq full]
  read_eq := by
    intro reg _
    rfl
  children_eq := by
    intro reg _ key
    rfl
  parents_eq := by
    intro reg _ key
    rfl
  allNodes_eq := by
    intro reg _
    rfl
  eq_of_visible := fun full full' same => Subtype.ext (by rwa [seenNodes_eq full, seenNodes_eq full'] at same)
  numNodes reg := (seenNodes hash rank reg.1).size
  applied reg := reg.1.keys.toFinset
  applied_new := rfl
  applied_apply := by
    intro reg node
    ext key
    rw [List.mem_toFinset, ExtTreeMap.mem_keys, ExtTreeMap.mem_insertIfNew, Finset.mem_insert,
      List.mem_toFinset, ExtTreeMap.mem_keys, Std.compare_eq_iff_eq, eq_comm]
  numNodes_add_numOrphans := by
    intro reg
    have most : (seenNodes hash rank reg.1).size ≤ reg.1.size := ExtTreeMap.size_filter_le_size
    rw [List.toFinset_card_of_nodup ExtTreeMap.nodup_keys, ExtTreeMap.length_keys]
    exact Nat.add_sub_of_le most
  eq_of_applied := by
    intro reg other same
    apply Subtype.ext
    apply ExtTreeMap.ext_getElem?
    intro key
    have members : key ∈ reg.1 ↔ key ∈ other.1 := by
      simpa using Finset.ext_iff.mp same key
    by_cases mem : key ∈ reg.1
    · have left := ExtTreeMap.getElem?_eq_some_getElem mem
      have right := ExtTreeMap.getElem?_eq_some_getElem (members.mp mem)
      rw [left, right, injective ((reg.2 key _ left).trans (other.2 key _ right).symm)]
    · rw [ExtTreeMap.getElem?_eq_none mem, ExtTreeMap.getElem?_eq_none (mt members.mpr mem)]
  mem_read := by
    intro reg node
    simp only [List.mem_map, List.mem_filter, Prod.exists, exists_eq_right, List.all_eq_true,
      Prod.forall, ExtTreeMap.mem_toList_iff_getElem?_eq_some, Bool.not_eq_true',
      ← Bool.not_eq_true, ExtTreeSet.contains_iff_mem,
      getElem?_seenNodes injective reg.2 descends]
    have stored : ∀ {other : Node H V}, Seen hash reg.1.keys.toFinset other →
        (reg.1 : ExtTreeMap H (Node H V))[hash other]? = some other := by
      intro other seen
      have mem : hash other ∈ reg.1 := by simpa using seen.mem
      have looked := ExtTreeMap.getElem?_eq_some_getElem mem
      rw [looked, injective (reg.2 _ _ looked)]
    constructor
    · rintro ⟨key, ⟨found, seen⟩, unnamed⟩
      obtain rfl := reg.2 key node found
      exact ⟨seen, fun other known => unnamed _ other ⟨stored known, known⟩⟩
    · rintro ⟨seen, unnamed⟩
      exact ⟨hash node, ⟨stored seen, seen⟩, fun _ other both => unnamed other both.2⟩

end OfRank

end OpenMerkleReg

end Crdt
