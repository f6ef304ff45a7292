import SafeNetwork.NetworkKnowledge.History

/-!
# Single branches

`SectionsDAG::single_branch_dag_for_key` returns a DAG with one branch: from the genesis key down to a key,
and on to some leaf below the key, the first child at each fork. The leaf comes with it, and is in general
not the key that was asked for.
-/

namespace SafeNetwork

open Std Crdt Forest

namespace SectionsDAG

variable {K : KeyScheme} {self chain : SectionsDAG K} {key : K.PublicKey} {node : K.Node}

/-- The loop of `SectionsDAG::single_branch_dag_for_key`, for at most `bound` keys. -/
def singleBranchLoop (self : SectionsDAG K) :
    Nat → SectionsDAG K → K.PublicKey → K.Result (SectionsDAG K × K.PublicKey)
  | 0, _, _ => .error .diverged
  | bound + 1, partialDag, lastKey => do
    let hash ← self.getHash lastKey
    match (self.childNodes hash).head? with
    | none => .ok (partialDag, lastKey)
    | some childNode =>
      let partialDag ← partialDag.verifyAndInsert lastKey childNode.value.key childNode.value.sig
      self.singleBranchLoop bound partialDag childNode.value.key

/-- `SectionsDAG::single_branch_dag_for_key` — a branch with a key in it, and the last key of the branch. -/
def singleBranchDagForKey (self : SectionsDAG K) (key : K.PublicKey) :
    K.Result (SectionsDAG K × K.PublicKey) :=
  let branch (lastKey : K.PublicKey) : K.Result (SectionsDAG K × K.PublicKey) := do
    let partialDag ← self.partialDag self.genesisKey lastKey
    self.singleBranchLoop (K.merkle.allNodes self.dag).length partialDag lastKey
  if self.genesisKey = key then
    match self.dagRoot.toList.head? with
    | some childKey => branch childKey
    | none => .ok (new key, key)
  else branch key

namespace Tidy

variable (tidy : self.Tidy)
include tidy

theorem child_of_mem (found : (K.merkle.visible self.dag)[K.merkle.hash node]? = some node)
    {child : K.Node} (mem : child ∈ self.childNodes (K.merkle.hash node)) :
    (K.merkle.visible self.dag)[K.merkle.hash child]? = some child ∧
      K.merkle.hash node ∈ child.children ∧
      self.entryOf child.value.key = some (node.value.key, child.value.sig) := by
  obtain ⟨hash, shown, named⟩ := tidy.grown.mem_parents.mp mem
  obtain rfl := tidy.grown.keyed shown
  obtain ⟨above, entry, -⟩ := tidy.entryOf_of_visible shown
  have parent := (tidy.parent_iff found shown).mp named
  rw [parentOf, entry, Option.map_some, Option.some.injEq] at parent
  exact ⟨shown, named, parent ▸ entry⟩

theorem leaf_of_childless (found : (K.merkle.visible self.dag)[K.merkle.hash node]? = some node)
    (childless : self.childNodes (K.merkle.hash node) = []) : IsLeaf self.parentOf self.keySet node.value.key := by
  refine ⟨hasKey_iff.mpr (.inr (tidy.known found)), fun below _ parent => ?_⟩
  obtain ⟨sig, entry⟩ := WellFormed.entryOf_of_parentOf parent
  obtain ⟨-, shown⟩ := tidy.lookup_of_entryOf entry
  have mem := tidy.grown.mem_parents.mpr ⟨_, shown, (tidy.parent_iff found shown).mpr parent⟩
  rw [← childNodes, childless] at mem
  cases mem

theorem singleBranchLoop_ok {rank : K.Hash → Nat}
    (ranking : K.merkle.Ranking self.dag rank) (bound : Nat)
    (found : (K.merkle.visible self.dag)[K.merkle.hash node]? = some node)
    (is : IsBranch self chain self.genesisKey node.value.key)
    (deep : (K.merkle.visible self.dag).size ≤ bound + rank (K.merkle.hash node)) :
    ∃ branch last, self.singleBranchLoop bound chain node.value.key = .ok (branch, last) ∧
      IsBranch self branch self.genesisKey last ∧ Above self.parentOf node.value.key last ∧
      IsLeaf self.parentOf self.keySet last := by
  induction bound generalizing chain node with
  | zero =>
    have mem : K.merkle.hash node ∈ K.merkle.visible self.dag := by
      rw [ExtTreeMap.mem_iff_isSome_getElem?, found]
      rfl
    have lower := ranking.bound mem
    omega
  | succ bound ih =>
    have lookup : self.getHash node.value.key = .ok (K.merkle.hash node) := by
      rw [getHash, tidy.single found]
    simp only [singleBranchLoop, lookup, bind, Except.bind]
    cases children : self.childNodes (K.merkle.hash node) with
    | nil => exact ⟨chain, node.value.key, rfl, is, .refl, tidy.leaf_of_childless found children⟩
    | cons child rest =>
      obtain ⟨shown, named, entry⟩ := tidy.child_of_mem found (by rw [children]; exact List.mem_cons_self ..)
      have inserted : chain.verifyAndInsert node.value.key child.value.key child.value.sig =
          .ok (chain.attach node.value.key child.value.key child.value.sig) :=
        verifyAndInsert_eq_ok.mpr ⟨(tidy.entryOf_signed entry).2.2, is.hasKey_bottom, rfl⟩
      have deeper := ranking.child shown named
      obtain ⟨branch, last, looped, isBranch, above, leaf⟩ :=
        ih shown (is.attach tidy entry) (by omega)
      have parent : self.parentOf child.value.key = some node.value.key := by
        rw [parentOf, entry, Option.map_some]
      refine ⟨branch, last, ?_, isBranch, Above.trans (.of_parent parent) above, leaf⟩
      simp only [List.head?_cons, inserted]
      exact looped

theorem exists_singleBranch_proper (known : self.hasKey key = true)
    (proper : key ≠ self.genesisKey) : ∃ branch last chain, self.partialDag self.genesisKey key = .ok chain ∧
      self.singleBranchLoop (K.merkle.allNodes self.dag).length chain key = .ok (branch, last) ∧
      IsBranch self branch self.genesisKey last ∧ Above self.parentOf key last ∧
      IsLeaf self.parentOf self.keySet last := by
  obtain ⟨rank, ranking⟩ := tidy.grown.exists_ranking
  obtain ⟨chain, listed, is⟩ := tidy.exists_partialDag known (tidy.view.root_above tidy.ends known)
  obtain ⟨hash, node, -, found, rfl⟩ := tidy.exists_node ((hasKey_iff.mp known).resolve_left proper)
  obtain rfl := tidy.grown.keyed found
  obtain ⟨branch, last, looped, isBranch, above, leaf⟩ := tidy.singleBranchLoop_ok ranking
    (K.merkle.allNodes self.dag).length found is (by rw [tidy.grown.length_allNodes]; omega)
  exact ⟨branch, last, chain, listed, looped, isBranch, above, leaf⟩

/-- `single_branch_dag_for_key` of a known key returns the branch to a leaf that is the key or below it. -/
theorem exists_singleBranch (known : self.hasKey key = true) :
    ∃ branch last, self.singleBranchDagForKey key = .ok (branch, last) ∧
      IsBranch self branch self.genesisKey last ∧ Above self.parentOf key last ∧
      IsLeaf self.parentOf self.keySet last := by
  rw [singleBranchDagForKey]
  split_ifs with genesis
  · subst genesis
    cases roots : self.dagRoot.toList with
    | nil =>
      refine ⟨_, _, rfl, isBranch_new tidy known, .refl, known, fun below _ parent => ?_⟩
      have mem := ExtTreeSet.mem_toList.mpr (tidy.mem_dagRoot.mpr parent)
      rw [roots] at mem
      cases mem
    | cons child rest =>
      have root : child ∈ self.dagRoot := by
        rw [← ExtTreeSet.mem_toList, roots]
        exact List.mem_cons_self ..
      have inside := tidy.root_known root
      obtain ⟨branch, last, chain, listed, looped, isBranch, above, leaf⟩ :=
        tidy.exists_singleBranch_proper (hasKey_iff.mpr (.inr inside))
          (fun same => tidy.genesis_fresh (same ▸ inside))
      refine ⟨branch, last, ?_, isBranch, (tidy.view.root_above tidy.ends leaf.1), leaf⟩
      simp only [List.head?_cons, listed, bind, Except.bind, looped]
  · obtain ⟨branch, last, chain, listed, looped, rest⟩ :=
      tidy.exists_singleBranch_proper known (Ne.symm genesis)
    refine ⟨branch, last, ?_, rest⟩
    simp only [listed, bind, Except.bind, looped]

end Tidy

/-- `single_branch_dag_for_key` of a known key of a tree of distinct keys returns a branch and a leaf of the
tree. The keys of the branch are those from the genesis key down to the leaf, the key is one of them, and each
has the parent and the signature that it has in the tree. -/
theorem singleBranchDagForKey_of_distinct (distinct : self.Distinct) (known : self.hasKey key = true) :
    ∃ branch last, self.singleBranchDagForKey key = .ok (branch, last) ∧
      branch.genesisKey = self.genesisKey ∧ branch.lastKey = .ok last ∧ last ∈ self.leafKeys ∧
      (∀ other, other ∈ branch.keys ↔
        self.AncestorOrSelf self.genesisKey other ∧ self.AncestorOrSelf other last) ∧
      key ∈ branch.keys ∧
      ∀ other ∈ branch.keys, other ∈ self.keys ∧ branch.entryOf other = self.entryOf other := by
  have tidy := distinct.tidy
  obtain ⟨branch, last, returned, is, above, leaf⟩ := tidy.exists_singleBranch known
  have embedded := is.embedded tidy
  have keys : ∀ other, other ∈ branch.keys ↔
      self.AncestorOrSelf self.genesisKey other ∧ self.AncestorOrSelf other last := by
    intro other
    rw [embedded.tidy.mem_keys, is.hasKey_iff]
    rfl
  refine ⟨branch, last, returned, is.genesis, is.lastKey tidy, tidy.mem_leafKeys.mpr leaf, keys,
    (keys key).mpr ⟨tidy.view.root_above tidy.ends known, above⟩, fun other inside => ?_⟩
  have seen := embedded.tidy.mem_keys.mp inside
  refine ⟨tidy.mem_keys.mpr (embedded.hasKey tidy seen), ?_⟩
  rw [embedded.entryOf_eq, is.genesis]
  by_cases genesis : other = self.genesisKey
  · simp [genesis]
  · rw [if_pos ⟨genesis, seen⟩]

/-- The branch through the key `1` of the sample tree ends in its leaf `2`. -/
theorem singleBranchDagForKey_sampleTree :
    ∃ branch, sampleTree.singleBranchDagForKey 1 = .ok (branch, 2) ∧ 0 ∈ branch.keys := by
  have known : sampleTree.hasKey 1 = true := rfl
  obtain ⟨branch, last, returned, genesis, -⟩ := singleBranchDagForKey_of_distinct sampleTree_distinct known
  obtain rfl : last = 2 := by
    have second := congrArg (Except.map Prod.snd) returned
    exact (Except.ok.inj second).symm
  exact ⟨branch, returned, List.mem_cons.mpr (.inl genesis.symm)⟩

end SectionsDAG

end SafeNetwork
