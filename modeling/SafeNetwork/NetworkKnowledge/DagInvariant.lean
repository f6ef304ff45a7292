import SafeNetwork.NetworkKnowledge.SectionsDag

/-!
# Invariant of the DAG of section keys

Every DAG that the interface can build is made by successful insertions (`Reachable`), also by
a hostile peer: `merge`, `partial_dag` and decoding insert keys one by one. `WellFormed` says
what insertions keep whatever keys, parents and signatures they are given: each node hangs
under the genesis key or under one visible node, whose key signed it, and each key leads to a
node of its own. Keys may be inserted again, also under another parent; then the key leads to
the last node, and the older one stays in the register.
-/

namespace SafeNetwork.SectionsDAG

open Std Crdt

variable {K : KeyScheme} {self dag : SectionsDAG K} {parentKey key : K.PublicKey}
  {signature : K.Signature} {hash : K.Hash} {node : K.Node}

/-! ## What one insertion does -/

/-- The parent hashes that an insertion under `parentKey` writes. -/
def parentHashes (self : SectionsDAG K) (parentKey : K.PublicKey) : ExtTreeSet K.Hash :=
  if parentKey = self.genesisKey then ∅
  else
    match self.hashes[parentKey]? with
    | some hash => {hash}
    | none => ∅

def childNode (self : SectionsDAG K) (parentKey key : K.PublicKey) (signature : K.Signature) :
    K.Node := ⟨self.parentHashes parentKey, ⟨key, signature⟩⟩

def attach (self : SectionsDAG K) (parentKey key : K.PublicKey) (signature : K.Signature) :
    SectionsDAG K where
  genesisKey := self.genesisKey
  dag := K.merkle.apply self.dag (self.childNode parentKey key signature)
  dagRoot := if parentKey = self.genesisKey then self.dagRoot.insert key else self.dagRoot
  hashes := self.hashes.insert key (K.merkle.hash (self.childNode parentKey key signature))

theorem hasKey_iff : self.hasKey key = true ↔ key = self.genesisKey ∨ key ∈ self.hashes := by
  simp [hasKey]

theorem insertTrustedKey_eq_ok : self.insertTrustedKey parentKey key signature = .ok dag ↔
      self.hasKey parentKey = true ∧ dag = self.attach parentKey key signature := by
  by_cases genesis : parentKey = self.genesisKey
  · simp only [insertTrustedKey, genesis, hasKey_iff, true_or, true_and]
    rw [eq_comm]
    simp [attach, applyChild, childNode, parentHashes]
  · cases found : self.hashes[parentKey]? with
    | none =>
      have absent : parentKey ∉ self.hashes := by simpa using found
      simp [insertTrustedKey, genesis, hasKey_iff, absent]
    | some hash =>
      have known : parentKey ∈ self.hashes := by
        rw [ExtTreeMap.mem_iff_isSome_getElem?, found]
        rfl
      simp only [insertTrustedKey, if_neg genesis, found, Except.ok.injEq, hasKey_iff, known,
        or_true, true_and]
      rw [eq_comm]
      simp [attach, applyChild, childNode, parentHashes, genesis, found]

theorem verifyAndInsert_eq_ok : self.verifyAndInsert parentKey key signature = .ok dag ↔
      K.verifySig parentKey key signature = true ∧ self.hasKey parentKey = true ∧
        dag = self.attach parentKey key signature := by
  unfold verifyAndInsert
  split
  · rename_i valid
    simp [insertTrustedKey_eq_ok, valid]
  · rename_i invalid
    simp [invalid]

@[simp] theorem attach_genesisKey : (self.attach parentKey key signature).genesisKey = self.genesisKey := rfl

theorem mem_hashes_attach {other : K.PublicKey} :
    other ∈ (self.attach parentKey key signature).hashes ↔ key = other ∨ other ∈ self.hashes := by
  simp [attach, ExtTreeMap.mem_insert]

theorem hasKey_attach {other : K.PublicKey} : (self.attach parentKey key signature).hasKey other = true ↔
      key = other ∨ self.hasKey other = true := by
  rw [hasKey_iff, mem_hashes_attach, hasKey_iff, attach_genesisKey]
  tauto

/-! ## The invariant -/

/-- The parent section of a node: the genesis key, or the key of the one visible node it names. -/
def HasParent (self : SectionsDAG K) (node : K.Node) (parentKey : K.PublicKey) : Prop :=
  (node.children = ∅ ∧ parentKey = self.genesisKey) ∨
    ∃ (hash : K.Hash) (parent : K.Node), node.children = {hash} ∧
      (K.merkle.visible self.dag)[hash]? = some parent ∧ parent.value.key = parentKey ∧
      parentKey ≠ self.genesisKey

structure WellFormed (sections : SectionsDAG K) : Prop where
  grown : K.merkle.Grown sections.dag
  signed : ∀ {hash : K.Hash} {node : K.Node}, (K.merkle.visible sections.dag)[hash]? = some node →
    ∃ parentKey, sections.HasParent node parentKey ∧
      K.verifySig parentKey node.value.key node.value.sig = true
  hashed : ∀ {key : K.PublicKey} {hash : K.Hash}, sections.hashes[key]? = some hash →
    ∃ node, (K.merkle.visible sections.dag)[hash]? = some node ∧ node.value.key = key
  known : ∀ {hash : K.Hash} {node : K.Node}, (K.merkle.visible sections.dag)[hash]? = some node →
    node.value.key ∈ sections.hashes
  root_known : ∀ {key : K.PublicKey}, key ∈ sections.dagRoot → key ∈ sections.hashes
  root_recorded : ∀ {hash : K.Hash} {node : K.Node},
    (K.merkle.visible sections.dag)[hash]? = some node → node.children = ∅ →
      node.value.key ∈ sections.dagRoot

theorem wellFormed_new (genesisKey : K.PublicKey) : (new genesisKey : SectionsDAG K).WellFormed where
  grown := .new
  signed := by simp [new, K.merkle.visible_new]
  hashed := by simp [new]
  known := by simp [new, K.merkle.visible_new]
  root_known := by simp [new]
  root_recorded := by simp [new, K.merkle.visible_new]

namespace WellFormed

variable (wf : self.WellFormed)
include wf

theorem parentHashes_visible (parentKey : K.PublicKey) :
    ∀ child ∈ self.parentHashes parentKey, child ∈ K.merkle.visible self.dag := by
  intro child mem
  unfold parentHashes at mem
  split at mem
  · simp at mem
  · split at mem
    · rename_i hash found
      obtain ⟨parent, stored, -⟩ := wf.hashed found
      obtain rfl : hash = child := by simpa using mem
      rw [ExtTreeMap.mem_iff_isSome_getElem?, stored]
      rfl
    · simp at mem

theorem getElem?_attach (hash : K.Hash) :
    (K.merkle.visible (self.attach parentKey key signature).dag)[hash]? =
      if K.merkle.hash (self.childNode parentKey key signature) = hash then
        some (self.childNode parentKey key signature) else (K.merkle.visible self.dag)[hash]? :=
  wf.grown.getElem?_apply (wf.parentHashes_visible parentKey) hash

theorem visible_attach (found : (K.merkle.visible self.dag)[hash]? = some node) :
    (K.merkle.visible (self.attach parentKey key signature).dag)[hash]? = some node := by
  rw [wf.getElem?_attach]
  split
  · -- The same hash belongs to the same node.
    rename_i same
    rw [K.merkle.hash_injective (same.trans (wf.grown.keyed found).symm)]
  · exact found

theorem hasParent_attach {other : K.PublicKey} (parent : self.HasParent node other) :
    (self.attach parentKey key signature).HasParent node other := by
  obtain root | ⟨hash, parent, one, found, named, proper⟩ := parent
  · exact Or.inl root
  · exact Or.inr ⟨hash, parent, one, wf.visible_attach found, named, proper⟩

theorem hasParent_childNode (known : self.hasKey parentKey = true)
    (key : K.PublicKey) (signature : K.Signature) :
    self.HasParent (self.childNode parentKey key signature) parentKey := by
  by_cases genesis : parentKey = self.genesisKey
  · exact Or.inl ⟨by simp [childNode, parentHashes, genesis], genesis⟩
  · have mem := (hasKey_iff.mp known).resolve_left genesis
    have found := ExtTreeMap.getElem?_eq_some_getElem mem
    obtain ⟨parent, stored, named⟩ := wf.hashed found
    exact Or.inr ⟨_, parent, by simp [childNode, parentHashes, genesis, found], stored, named,
      genesis⟩

theorem attach (valid : K.verifySig parentKey key signature = true)
    (known : self.hasKey parentKey = true) : (self.attach parentKey key signature).WellFormed where
  grown := wf.grown.apply (wf.parentHashes_visible parentKey)
  signed := by
    intro hash node found
    rw [wf.getElem?_attach] at found
    split at found
    · obtain rfl := Option.some.inj found
      exact ⟨parentKey, wf.hasParent_attach (wf.hasParent_childNode known key signature), valid⟩
    · obtain ⟨other, parent, verified⟩ := wf.signed found
      exact ⟨other, wf.hasParent_attach parent, verified⟩
  hashed := by
    intro other hash found
    simp only [SectionsDAG.attach, ExtTreeMap.getElem?_insert, Std.compare_eq_iff_eq] at found
    split at found
    · rename_i same
      obtain rfl := Option.some.inj found
      refine ⟨self.childNode parentKey key signature, ?_, same⟩
      rw [wf.getElem?_attach, if_pos rfl]
    · obtain ⟨node, stored, named⟩ := wf.hashed found
      exact ⟨node, wf.visible_attach stored, named⟩
  known := by
    intro hash node found
    rw [mem_hashes_attach]
    rw [wf.getElem?_attach] at found
    split at found
    · obtain rfl := Option.some.inj found
      exact Or.inl rfl
    · exact Or.inr (wf.known found)
  root_known := by
    intro other mem
    rw [mem_hashes_attach]
    simp only [SectionsDAG.attach] at mem
    split at mem
    · rw [ExtTreeSet.mem_insert, Std.compare_eq_iff_eq] at mem
      exact mem.imp_right wf.root_known
    · exact Or.inr (wf.root_known mem)
  root_recorded := by
    intro hash node found root
    rw [wf.getElem?_attach] at found
    simp only [SectionsDAG.attach]
    split at found
    · obtain rfl := Option.some.inj found
      have genesis : parentKey = self.genesisKey := by
        by_contra proper
        obtain ⟨-, same⟩ | ⟨hash', -, one, -⟩ := wf.hasParent_childNode known key signature
        · exact proper same
        · rw [one] at root
          simpa using congrArg (hash' ∈ ·) root
      rw [if_pos genesis, ExtTreeSet.mem_insert, Std.compare_eq_iff_eq]
      exact Or.inl rfl
    · have mem := wf.root_recorded found root
      split
      · rw [ExtTreeSet.mem_insert]
        exact Or.inr mem
      · exact mem

end WellFormed

/-- The DAGs that successful insertions build from a genesis key. -/
inductive Reachable : SectionsDAG K → Prop
  | new (genesisKey : K.PublicKey) : Reachable (new genesisKey)
  | insert {self dag : SectionsDAG K} {parentKey key : K.PublicKey} {signature : K.Signature} :
      Reachable self → self.verifyAndInsert parentKey key signature = .ok dag → Reachable dag

theorem Reachable.wellFormed (reachable : self.Reachable) : self.WellFormed := by
  induction reachable with
  | new genesisKey => exact wellFormed_new genesisKey
  | insert _ inserted ih =>
    obtain ⟨valid, known, rfl⟩ := verifyAndInsert_eq_ok.mp inserted
    exact ih.attach valid known

/-! ## Lookups of a well-formed DAG -/

namespace WellFormed

variable (wf : self.WellFormed)
include wf

theorem exists_node (known : key ∈ self.hashes) :
    ∃ (hash : K.Hash) (node : K.Node), self.hashes[key]? = some hash ∧
      (K.merkle.visible self.dag)[hash]? = some node ∧ node.value.key = key := by
  have found := ExtTreeMap.getElem?_eq_some_getElem known
  obtain ⟨node, stored, named⟩ := wf.hashed found
  exact ⟨_, node, found, stored, named⟩

theorem getNode_eq_ok : self.getNode key = .ok node ↔
      ∃ hash : K.Hash, self.hashes[key]? = some hash ∧
        (K.merkle.visible self.dag)[hash]? = some node := by
  unfold getNode getHash
  cases found : self.hashes[key]? with
  | none => simp [bind, Except.bind]
  | some hash =>
    obtain ⟨stored, visible, -⟩ := wf.hashed found
    simp [bind, Except.bind, K.merkle.node_eq wf.grown.numOrphans, visible]

theorem mem_keys : key ∈ self.keys ↔ self.hasKey key = true := by
  rw [hasKey_iff, keys, List.mem_cons, List.mem_map]
  refine or_congr_right ?_
  constructor
  · rintro ⟨node, mem, rfl⟩
    obtain ⟨hash, found⟩ := wf.grown.mem_allNodes.mp mem
    exact wf.known found
  · intro known
    obtain ⟨hash, node, -, found, named⟩ := wf.exists_node known
    exact ⟨node, wf.grown.mem_allNodes.mpr ⟨hash, found⟩, named⟩

theorem parentNode_root
    (found : (K.merkle.visible self.dag)[hash]? = some node) (root : node.children = ∅) :
    self.parentNode hash = none := by
  rw [parentNode, wf.grown.children_empty found root]
  rfl

theorem parentNode_inner {above : K.Hash} {parent : K.Node}
    (found : (K.merkle.visible self.dag)[hash]? = some node) (one : node.children = {above})
    (stored : (K.merkle.visible self.dag)[above]? = some parent) : self.parentNode hash = some parent := by
  rw [parentNode, wf.grown.children_singleton found one stored]
  rfl

theorem getParentKey_eq (proper : key ≠ self.genesisKey)
    (lookup : self.hashes[key]? = some hash) (found : (K.merkle.visible self.dag)[hash]? = some node)
    (parent : self.HasParent node parentKey) : self.getParentKey key = .ok (some parentKey) := by
  rw [getParentKey, if_neg proper]
  simp only [getHash, lookup, bind, Except.bind]
  obtain ⟨root, same⟩ | ⟨above, parentNode, one, stored, named, -⟩ := parent
  · rw [wf.parentNode_root found root, same]
  · rw [wf.parentNode_inner found one stored, ← named]

theorem linked (known : self.hasKey key = true) : K.Linked self.genesisKey key := by
  obtain ⟨rank, ranking⟩ := wf.grown.exists_ranking
  -- The walk is one along nodes: a key may have been inserted below itself.
  have nodes : ∀ bound, ∀ {hash : K.Hash} {node : K.Node}, rank hash < bound →
      (K.merkle.visible self.dag)[hash]? = some node → K.Linked self.genesisKey node.value.key := by
    intro bound
    induction bound with
    | zero => exact fun short => absurd short (Nat.not_lt_zero _)
    | succ bound ih =>
      intro hash node below found
      obtain ⟨parentKey, parent, verified⟩ := wf.signed found
      obtain ⟨-, rfl⟩ | ⟨above, parentNode, one, stored, rfl, -⟩ := parent
      · exact .single ⟨_, verified⟩
      · have named : above ∈ node.children := by simp [one]
        have falls := ranking.child found named
        exact (ih (by omega) stored).tail ⟨_, verified⟩
  obtain rfl | inside := hasKey_iff.mp known
  · exact .refl
  · obtain ⟨hash, node, -, found, rfl⟩ := wf.exists_node inside
    exact nodes _ (Nat.lt_succ_self _) found

end WellFormed

end SafeNetwork.SectionsDAG
