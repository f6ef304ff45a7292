import SafeNetwork.NetworkKnowledge.DagSubtree

/-!
# Branches

`partial_dag` walks from a key up to another and inserts what it passed into a new DAG. Of a DAG
in which each key has one node, the result is the connected sub-tree of the keys between the two,
and there is one exactly when the first key is the second or one of its ancestors.
-/

namespace SafeNetwork.SectionsDAG

open Std Crdt Walk Forest

variable {K : KeyScheme} {self whole part chain dag : SectionsDAG K}
  {parentKey key top bottom : K.PublicKey} {signature : K.Signature} {node : K.Node}
  {crdtOps : List K.Node} {ancestors : List K.PublicKey}

structure IsBranch (whole chain : SectionsDAG K) (top bottom : K.PublicKey) : Prop where
  contained : whole.Contains chain
  genesis : chain.genesisKey = top
  hasKey_iff : ∀ key, chain.hasKey key = true ↔ key ∈ branch whole.parentOf top bottom

theorem isBranch_new (tidy : whole.Tidy) (known : whole.hasKey top = true) : IsBranch whole (new top) top top where
  contained := .new known
  genesis := rfl
  hasKey_iff := by
    intro key
    have alone : (new top).hasKey key = true ↔ key = top := by
      simp [hasKey, new]
    rw [alone]
    refine ⟨?_, fun between => tidy.ends.antisymm between.2 between.1⟩
    rintro rfl
    exact ⟨.refl, .refl⟩

namespace IsBranch

section

variable (is : IsBranch whole chain top bottom)
include is

theorem embedded (tidy : whole.Tidy) : chain.Embedded whole :=
  is.contained.embedded tidy

theorem above : Above whole.parentOf top bottom := by
  have known : chain.hasKey chain.genesisKey = true := SectionsDAG.hasKey_iff.mpr (Or.inl rfl)
  rw [is.genesis] at known
  exact ((is.hasKey_iff top).mp known).2

theorem hasKey_bottom : chain.hasKey bottom = true :=
  (is.hasKey_iff bottom).mpr ⟨is.above, .refl⟩

theorem unique (is' : IsBranch whole dag top bottom)
    (tidy : whole.Tidy) : chain = dag :=
  (is.embedded tidy).ext (is'.embedded tidy) (is.genesis.trans is'.genesis.symm) fun key =>
    (is.hasKey_iff key).trans (is'.hasKey_iff key).symm

end

theorem attach (is : IsBranch whole chain top parentKey) (tidy : whole.Tidy)
    (entry : whole.entryOf key = some (parentKey, signature)) :
    IsBranch whole (chain.attach parentKey key signature) top key where
  contained :=
    is.contained.insert entry (verifyAndInsert_eq_ok.mpr
      ⟨(tidy.entryOf_signed entry).2.2, is.hasKey_bottom, rfl⟩)
  genesis := is.genesis
  hasKey_iff := by
    have parent : whole.parentOf key = some parentKey := by rw [parentOf, entry, Option.map_some]
    intro other
    rw [hasKey_attach, is.hasKey_iff]
    constructor
    · rintro (rfl | ⟨upper, lower⟩)
      · exact ⟨is.above.trans (.of_parent parent), .refl⟩
      · exact ⟨upper, lower.trans (.of_parent parent)⟩
    · rintro ⟨upper, lower⟩
      by_cases same : other = key
      · exact Or.inl same.symm
      · obtain ⟨above, goes, rest⟩ := lower.parent_of_ne same
        obtain rfl := Option.some.inj (parent.symm.trans goes)
        exact Or.inr ⟨upper, rest⟩

theorem lastKey (is : IsBranch whole chain top bottom) (tidy : whole.Tidy) : chain.lastKey = .ok bottom := by
  have leaves : chain.leafKeys = {bottom} := by
    apply ExtTreeSet.ext_mem
    intro key
    have keys : chain.keySet = branch whole.parentOf top bottom := Set.ext is.hasKey_iff
    rw [(is.embedded tidy).mem_leafKeys tidy, keys, isLeaf_branch tidy.ends is.above,
      mem_singleton]
  have listed : ({bottom} : ExtTreeSet K.PublicKey).toList = [bottom] := rfl
  rw [SectionsDAG.lastKey, leaves, listed]

theorem of_embedded (is : IsBranch part chain top bottom) (embedded : part.Embedded whole)
    (tidy : whole.Tidy) : IsBranch whole chain top bottom where
  contained := is.contained.of_embedded embedded tidy
  genesis := is.genesis
  hasKey_iff := by
    have start : part.hasKey top = true := is.genesis ▸ (is.embedded embedded.tidy).genesis_known
    have finish : part.hasKey bottom = true :=
      (is.embedded embedded.tidy).hasKey embedded.tidy is.hasKey_bottom
    intro key
    rw [is.hasKey_iff]
    refine ⟨fun between => ⟨between.1.mono embedded.parentOf, between.2.mono embedded.parentOf⟩, ?_⟩
    rintro ⟨upper, lower⟩
    have known : part.hasKey key = true := embedded.view.mem_of_above tidy.ends finish lower
      ((embedded.view.root_above tidy.ends start).trans upper)
    exact ⟨(embedded.above_iff tidy start known).mpr upper,
      (embedded.above_iff tidy known finish).mpr lower⟩

end IsBranch

/-! ## The two loops of `partial_dag` -/

theorem insertBranch_append (inserted : insertBranch self parentKey crdtOps = .ok chain)
    (last : crdtOps.foldl (fun _ node => node.value.key) parentKey = key)
    (next : chain.insertTrustedKey key node.value.key node.value.sig = .ok dag) :
    insertBranch self parentKey (crdtOps ++ [node]) = .ok dag := by
  induction crdtOps generalizing self parentKey with
  | nil =>
    obtain rfl := Except.ok.inj inserted
    rw [← last, List.foldl_nil] at next
    simp [insertBranch, next, bind, Except.bind]
  | cons first rest ih =>
    cases done : self.insertTrustedKey parentKey first.value.key first.value.sig with
    | error error => simp [insertBranch, done, bind, Except.bind] at inserted
    | ok middle =>
      simp only [insertBranch, done, bind, Except.bind] at inserted
      simp only [List.cons_append, insertBranch, done, bind, Except.bind]
      exact ih inserted last

/-! ## Partial DAGs of a DAG in which each key has one node -/

/-- The nodes from a key up to, and without, the top are inserted as the branch between the two. -/
def Collected (whole : SectionsDAG K) (top key : K.PublicKey) (crdtOps : List K.Node) : Prop :=
  crdtOps.reverse.foldl (fun _ node => node.value.key) top = key ∧
    ∃ chain, insertBranch (new top) top crdtOps.reverse = .ok chain ∧ IsBranch whole chain top key

namespace Tidy

theorem collected_nil (tidy : self.Tidy) (known : self.hasKey top = true) : self.Collected top top [] :=
  ⟨rfl, new top, rfl, isBranch_new tidy known⟩

theorem collected_cons (tidy : self.Tidy) (collected : self.Collected top parentKey crdtOps)
    (entry : self.entryOf node.value.key = some (parentKey, node.value.sig)) :
    self.Collected top node.value.key (node :: crdtOps) := by
  obtain ⟨last, chain, inserted, is⟩ := collected
  refine ⟨by simp, chain.attach parentKey node.value.key node.value.sig, ?_, is.attach tidy entry⟩
  rw [List.reverse_cons]
  exact insertBranch_append inserted last
    (insertTrustedKey_eq_ok.mpr ⟨is.hasKey_bottom, rfl⟩)

section

variable (tidy : self.Tidy) (path : Path self.parentOf key ancestors)
  (found : (K.merkle.visible self.dag)[K.merkle.hash node]? = some node) (named : node.value.key = key)
include tidy path found named

theorem partialDagLoop_ok (above : Above self.parentOf top key) (bound : Nat)
    (enough : ancestors.length ≤ bound) : ∃ crdtOps, self.partialDagLoop top bound node = .ok crdtOps ∧
      self.Collected top key crdtOps := by
  induction path generalizing node bound with
  | @stop key ends =>
    obtain ⟨parentKey, entry, -⟩ := tidy.entryOf_of_visible found
    rw [named] at entry
    simp [parentOf, entry] at ends
  | @step key parent ancestors goes _ ih =>
    obtain ⟨bound, rfl⟩ := Nat.exists_eq_succ_of_ne_zero (Nat.ne_zero_of_lt enough)
    obtain ⟨parent', entry, -⟩ := tidy.entryOf_of_visible found
    subst named
    obtain rfl : parent' = parent := by simpa [parentOf, entry] using goes
    by_cases same : node.value.key = top
    · have known : self.hasKey node.value.key = true := hasKey_iff.mpr (Or.inr (tidy.known found))
      refine ⟨[], by simp [partialDagLoop, same], same ▸ tidy.collected_nil known⟩
    · obtain ⟨upperKey, goes', rest⟩ := above.parent_of_ne (Ne.symm same)
      obtain rfl := Option.some.inj (goes.symm.trans goes')
      obtain ⟨root, genesis⟩ | ⟨parentNode, upper, stored, next⟩ := tidy.parentNode_eq found
      · -- The node hangs under the genesis key, which has no parent, so that it is the top.
        obtain rfl := Option.some.inj (goes.symm.trans genesis)
        obtain rfl : top = self.genesisKey := by
          by_contra proper
          obtain ⟨beyond, none, -⟩ := rest.parent_of_ne proper
          simp at none
        have start := tidy.collected_nil (hasKey_iff.mpr (Or.inl rfl))
        exact ⟨[node], by simp [partialDagLoop, same, root], tidy.collected_cons start entry⟩
      · obtain ⟨crdtOps, looped, collected⟩ := ih stored
          (Option.some.inj (goes.symm.trans next)).symm rest bound (by simpa using enough)
        refine ⟨node :: crdtOps, ?_, tidy.collected_cons collected entry⟩
        simp [partialDagLoop, same, upper, looped, bind, Except.bind]

theorem partialDagLoop_invalidBranch (apart : ¬ Above self.parentOf top key) (bound : Nat)
    (enough : ancestors.length ≤ bound) : self.partialDagLoop top bound node = .error .invalidBranch := by
  induction path generalizing node bound with
  | @stop key ends =>
    obtain ⟨parentKey, entry, -⟩ := tidy.entryOf_of_visible found
    rw [named] at entry
    simp [parentOf, entry] at ends
  | @step key parent ancestors goes _ ih =>
    obtain ⟨bound, rfl⟩ := Nat.exists_eq_succ_of_ne_zero (Nat.ne_zero_of_lt enough)
    subst named
    have proper : node.value.key ≠ top := fun same => apart (same ▸ .refl)
    obtain ⟨root, genesis⟩ | ⟨parentNode, upper, stored, next⟩ := tidy.parentNode_eq found
    · have other : top ≠ self.genesisKey := fun same => apart (same ▸ .of_parent genesis)
      simp [partialDagLoop, proper, root, other]
    · have higher : ¬ Above self.parentOf top parent := fun above =>
        apart (above.trans (.of_parent goes))
      have looped := ih stored (Option.some.inj (goes.symm.trans next)).symm higher bound
        (by simpa using enough)
      simp [partialDagLoop, proper, upper, looped, bind, Except.bind]

end

/-! ## `partial_dag` -/

/-- `partial_dag` to a known key other than the genesis key starts its loop at the node of the key,
with a bound that no walk reaches. -/
theorem partialDag_eq_loop (tidy : self.Tidy) (top : K.PublicKey)
    (known : self.hasKey bottom = true) (proper : bottom ≠ self.genesisKey) :
    ∃ node ancestors, (K.merkle.visible self.dag)[K.merkle.hash node]? = some node ∧
      node.value.key = bottom ∧ Path self.parentOf bottom ancestors ∧
      ancestors.length ≤ (K.merkle.allNodes self.dag).length + 1 ∧
      self.partialDag top bottom = (self.partialDagLoop top ((K.merkle.allNodes self.dag).length + 1) node).bind
          fun crdtOps => insertBranch (new top) top crdtOps.reverse := by
  obtain ⟨hash, node, lookup, found, named⟩ :=
    tidy.exists_node ((hasKey_iff.mp known).resolve_left proper)
  obtain rfl := tidy.grown.keyed found
  obtain ⟨ancestors, path⟩ := tidy.ends bottom
  have enough : ancestors.length ≤ (K.merkle.allNodes self.dag).length + 1 := by
    have bounded := WellFormed.path_length_le path
    have nodes := tidy.size_hashes_le
    omega
  refine ⟨node, ancestors, found, named, path, enough, ?_⟩
  simp [partialDag, proper, tidy.getNode_eq_ok.mpr ⟨_, lookup, found⟩, bind, Except.bind]

theorem exists_partialDag (tidy : self.Tidy) (known : self.hasKey bottom = true)
    (above : Above self.parentOf top bottom) :
    ∃ chain, self.partialDag top bottom = .ok chain ∧ IsBranch self chain top bottom := by
  by_cases genesis : bottom = self.genesisKey
  · obtain rfl : top = bottom := by
      by_contra proper
      obtain ⟨beyond, none, -⟩ := above.parent_of_ne proper
      simp [genesis] at none
    subst genesis
    exact ⟨new self.genesisKey, by simp [partialDag], isBranch_new tidy known⟩
  · obtain ⟨node, ancestors, found, named, path, enough, starts⟩ :=
      tidy.partialDag_eq_loop top known genesis
    obtain ⟨crdtOps, looped, -, chain, inserted, is⟩ :=
      tidy.partialDagLoop_ok path found named above _ enough
    refine ⟨chain, ?_, is⟩
    rw [starts, looped]
    exact inserted

theorem partialDag_unknown (unknown : self.hasKey bottom = false) :
    self.partialDag top bottom = .error (.keyNotFound bottom) := by
  have absent : ¬ (bottom = self.genesisKey ∨ bottom ∈ self.hashes) := by
    rw [← hasKey_iff, unknown]
    simp
  obtain ⟨proper, missing⟩ := not_or.mp absent
  simp [partialDag, proper, getNode, getHash, ExtTreeMap.getElem?_eq_none missing, bind, Except.bind]

theorem partialDag_apart (tidy : self.Tidy) (known : self.hasKey bottom = true)
    (apart : ¬ Above self.parentOf top bottom) : self.partialDag top bottom = .error .invalidBranch := by
  by_cases genesis : bottom = self.genesisKey
  · have other : top ≠ self.genesisKey := by
      rintro rfl
      exact apart (genesis ▸ .refl)
    simp [partialDag, genesis, other]
  · obtain ⟨node, ancestors, found, named, path, enough, starts⟩ :=
      tidy.partialDag_eq_loop top known genesis
    rw [starts, tidy.partialDagLoop_invalidBranch path found named apart _ enough]
    rfl

theorem partialDag_eq_ok (tidy : self.Tidy) :
    self.partialDag top bottom = .ok chain ↔ IsBranch self chain top bottom := by
  have of_above : self.hasKey bottom = true → Above self.parentOf top bottom →
      (self.partialDag top bottom = .ok chain ↔ IsBranch self chain top bottom) := by
    intro known above
    obtain ⟨result, returned, is⟩ := tidy.exists_partialDag known above
    rw [returned, Except.ok.injEq]
    exact ⟨fun same => same ▸ is, fun is' => is.unique is' tidy⟩
  refine ⟨fun returned => ?_, fun is => ?_⟩
  · have known : self.hasKey bottom = true := by
      by_contra unknown
      simp [partialDag_unknown (Bool.eq_false_iff.mpr unknown)] at returned
    have above : Above self.parentOf top bottom := by
      by_contra apart
      simp [tidy.partialDag_apart known apart] at returned
    exact (of_above known above).mp returned
  · exact (of_above ((is.embedded tidy).hasKey tidy is.hasKey_bottom) is.above).mpr is

end Tidy

/-- `partial_dag` in a tree of distinct keys, each inserted once under a known parent. It returns
exactly when the lower key is known and the upper one is the lower or one of its ancestors. The
result starts at the upper key, has the keys on the path between the two, ends in the lower key and
passes `self_verify`. An unknown lower key is not found, and any other failure is an invalid branch. -/
theorem partialDag_of_distinct (distinct : self.Distinct) (fromKey toKey : K.PublicKey) :
    ((∃ chain, self.partialDag fromKey toKey = .ok chain) ↔
      self.hasKey toKey = true ∧ self.AncestorOrSelf fromKey toKey) ∧
    (∀ chain, self.partialDag fromKey toKey = .ok chain → chain.genesisKey = fromKey ∧
      (∀ key, key ∈ chain.keys ↔
        self.AncestorOrSelf fromKey key ∧ self.AncestorOrSelf key toKey) ∧
      chain.lastKey = .ok toKey ∧ chain.selfVerify = true) ∧
    (self.hasKey toKey = false → self.partialDag fromKey toKey = .error (.keyNotFound toKey)) ∧
    (self.hasKey toKey = true → ¬ self.AncestorOrSelf fromKey toKey →
      self.partialDag fromKey toKey = .error .invalidBranch) := by
  have tidy := distinct.tidy
  refine ⟨⟨?_, ?_⟩, fun chain returned => ?_, Tidy.partialDag_unknown, tidy.partialDag_apart⟩
  · rintro ⟨chain, returned⟩
    have is := tidy.partialDag_eq_ok.mp returned
    exact ⟨(is.embedded tidy).hasKey tidy is.hasKey_bottom, is.above⟩
  · rintro ⟨known, above⟩
    obtain ⟨chain, returned, -⟩ := tidy.exists_partialDag known above
    exact ⟨chain, returned⟩
  · have is := tidy.partialDag_eq_ok.mp returned
    have embedded := is.embedded tidy
    refine ⟨is.genesis, fun key => ?_, is.lastKey tidy, embedded.selfVerify⟩
    rw [embedded.tidy.mem_keys, is.hasKey_iff]
    rfl

/-- The branch `1 → 2` of the sample tree, and the two ways to ask for none. -/
theorem partialDag_sampleTree : (∃ chain, sampleTree.partialDag 1 2 = .ok chain ∧ chain.lastKey = .ok 2) ∧
    sampleTree.partialDag 1 4 = .error (.keyNotFound 4) ∧
    sampleTree.partialDag 3 2 = .error .invalidBranch := by
  refine ⟨?_, (partialDag_of_distinct sampleTree_distinct 1 4).2.2.1 rfl, rfl⟩
  obtain ⟨chain, returned⟩ : ∃ chain, sampleTree.partialDag 1 2 = .ok chain := ⟨_, rfl⟩
  exact ⟨chain, returned, ((partialDag_of_distinct sampleTree_distinct 1 2).2.1 chain returned).2.2.1⟩

end SafeNetwork.SectionsDAG
