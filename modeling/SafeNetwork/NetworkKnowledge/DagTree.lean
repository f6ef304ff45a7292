import SafeNetwork.NetworkKnowledge.DagEntries

/-!
# DAGs in which each key has one node

When no key is inserted twice in different ways, the DAG is a tree of keys: each key leads to
the only node with that key (`Tidy`), and the parents form a forest. Such a DAG is determined by
its genesis key and the entries of its keys. The Merkle hashes are not part of that description,
although they depend on the way from the genesis key: they follow from the entries.
-/

namespace SafeNetwork.SectionsDAG

open Std Crdt

variable {K : KeyScheme} {self dag : SectionsDAG K} {parentKey key : K.PublicKey}
  {signature : K.Signature} {hash : K.Hash} {node : K.Node}

/-- A DAG in which each key leads to the only node with that key. -/
structure Tidy (sections : SectionsDAG K) : Prop extends WellFormed sections where
  single : ∀ {hash : K.Hash} {node : K.Node}, (K.merkle.visible sections.dag)[hash]? = some node →
    sections.hashes[node.value.key]? = some hash
  genesis_fresh : sections.genesisKey ∉ sections.hashes
  root_parent : ∀ {key : K.PublicKey}, key ∈ sections.dagRoot →
    sections.parentOf key = some sections.genesisKey

/-- The DAGs that successful insertions of new keys build: a tree of distinct signed keys. -/
inductive Distinct : SectionsDAG K → Prop
  | new (genesisKey : K.PublicKey) : Distinct (new genesisKey)
  | insert {self dag : SectionsDAG K} {parentKey key : K.PublicKey} {signature : K.Signature} :
      Distinct self → self.hasKey key = false →
      self.verifyAndInsert parentKey key signature = .ok dag → Distinct dag

namespace Tidy

/-! ## Entries and nodes -/

section

variable (tidy : self.Tidy)
include tidy

theorem hasKey_iff_entryOf :
    self.hasKey key = true ↔ key = self.genesisKey ∨ (self.entryOf key).isSome := by
  rw [hasKey_iff]
  refine or_congr_right ⟨fun known => ?_, fun some => ?_⟩
  · have proper : key ≠ self.genesisKey := fun same => tidy.genesis_fresh (same ▸ known)
    obtain ⟨above, sig, entry, -⟩ := tidy.exists_entry proper known
    rw [entry]
    rfl
  · by_contra absent
    simp [entryOf_unknown absent] at some

theorem hasKey_iff_parentOf :
    self.hasKey key = true ↔ key = self.genesisKey ∨ (self.parentOf key).isSome := by
  rw [tidy.hasKey_iff_entryOf, parentOf, Option.isSome_map]

theorem lookup_of_entryOf (entry : self.entryOf key = some (parentKey, signature)) :
    self.hashes[key]? = some (K.merkle.hash (self.childNode parentKey key signature)) ∧
      (K.merkle.visible self.dag)[K.merkle.hash (self.childNode parentKey key signature)]? =
        some (self.childNode parentKey key signature) := by
  obtain ⟨-, hash, node, lookup, found, value, parent⟩ := tidy.of_entryOf entry
  have children : node.children = self.parentHashes parentKey := by
    obtain ⟨root, genesis⟩ | ⟨above, parentNode, one, stored, named, proper⟩ := parent
    · rw [root, parentHashes, if_pos genesis]
    · have recorded := tidy.single stored
      rw [named] at recorded
      rw [one, parentHashes, if_neg proper, recorded]
  have same : node = self.childNode parentKey key signature := Node.ext children value
  obtain rfl := tidy.grown.keyed found
  rw [← same]
  exact ⟨lookup, found⟩

theorem entryOf_of_visible (found : (K.merkle.visible self.dag)[hash]? = some node) :
    ∃ parentKey, self.entryOf node.value.key = some (parentKey, node.value.sig) ∧
      self.HasParent node parentKey := by
  have recorded := tidy.single found
  have proper : node.value.key ≠ self.genesisKey := fun same =>
    tidy.genesis_fresh (same ▸ tidy.known found)
  obtain ⟨parentKey, parent, -⟩ := tidy.signed found
  exact ⟨parentKey, tidy.entryOf_eq proper recorded found parent, parent⟩

theorem parentNode_eq (found : (K.merkle.visible self.dag)[K.merkle.hash node]? = some node) :
    (self.parentNode (K.merkle.hash node) = none ∧
      self.parentOf node.value.key = some self.genesisKey) ∨
    ∃ parent, self.parentNode (K.merkle.hash node) = some parent ∧
      (K.merkle.visible self.dag)[K.merkle.hash parent]? = some parent ∧
      self.parentOf node.value.key = some parent.value.key := by
  obtain ⟨above, entry, parent⟩ := tidy.entryOf_of_visible found
  have goes : self.parentOf node.value.key = some above := by rw [parentOf, entry, Option.map_some]
  obtain ⟨root, rfl⟩ | ⟨upper, parentNode, one, stored, rfl, -⟩ := parent
  · exact Or.inl ⟨tidy.parentNode_root found root, goes⟩
  · refine Or.inr ⟨parentNode, tidy.parentNode_inner found one stored, ?_, goes⟩
    rwa [tidy.grown.keyed stored]

theorem mem_dagRoot : key ∈ self.dagRoot ↔ self.parentOf key = some self.genesisKey := by
  refine ⟨tidy.root_parent, fun parent => ?_⟩
  obtain ⟨signature, entry⟩ := WellFormed.entryOf_of_parentOf parent
  obtain ⟨-, found⟩ := tidy.lookup_of_entryOf entry
  refine tidy.root_recorded found ?_
  simp [childNode, parentHashes]

theorem size_hashes_le : self.hashes.size ≤ (K.merkle.allNodes self.dag).length := by
  have inside : self.hashes.keys ⊆ (K.merkle.allNodes self.dag).map fun node => node.value.key := by
    intro key mem
    obtain ⟨hash, node, -, found, named⟩ := tidy.exists_node (ExtTreeMap.mem_keys.mp mem)
    exact List.mem_map.mpr ⟨node, tidy.grown.mem_allNodes.mpr ⟨hash, found⟩, named⟩
  have bounded := (List.subperm_of_subset self.hashes.nodup_keys inside).length_le
  simpa [ExtTreeMap.length_keys] using bounded

theorem ends : Forest.Ends self.parentOf := by
  obtain ⟨rank, ranking⟩ := tidy.grown.exists_ranking
  -- A key ranks above its parent by the hashes of their nodes.
  refine Forest.ends_of_rank (fun key => (self.hashes[key]?).elim 0 fun hash => rank hash + 1) ?_
  intro key above parent
  obtain ⟨signature, entry⟩ := WellFormed.entryOf_of_parentOf parent
  obtain ⟨-, hash, node, lookup, found, -, parent⟩ := tidy.of_entryOf entry
  simp only [lookup]
  obtain ⟨-, rfl⟩ | ⟨upper, parentNode, one, stored, rfl, -⟩ := parent
  · have missing : self.hashes[self.genesisKey]? = none := by simpa using tidy.genesis_fresh
    simp [missing]
  · rw [tidy.single stored]
    have named : upper ∈ node.children := by simp [one]
    simpa using ranking.child found named

end

/-! ## A tidy DAG is determined by its entries -/

section

variable (tidy : self.Tidy) (tidy' : dag.Tidy) (genesis : self.genesisKey = dag.genesisKey)
  (entries : self.entryOf = dag.entryOf)
include tidy tidy' genesis entries

theorem hashes_eq (key : K.PublicKey) : self.hashes[key]? = dag.hashes[key]? := by
  induction key using tidy.ends.induction with
  | _ key ih =>
    cases entry : self.entryOf key with
    | none =>
      have absent : ∀ {dag : SectionsDAG K}, dag.Tidy → dag.entryOf key = none →
          dag.hashes[key]? = none := by
        intro dag tidy none
        simp only [getElem?_eq_none_iff]
        intro known
        obtain same | some := tidy.hasKey_iff_entryOf.mp (hasKey_iff.mpr (Or.inr known))
        · exact tidy.genesis_fresh (same ▸ known)
        · simp [none] at some
      rw [absent tidy entry, absent tidy' (entries ▸ entry)]
    | some pair =>
      obtain ⟨above, sig⟩ := pair
      have parents : self.parentHashes above = dag.parentHashes above := by
        rw [parentHashes, parentHashes, genesis, ih above (by rw [parentOf, entry]; rfl)]
      rw [(tidy.lookup_of_entryOf entry).1, (tidy'.lookup_of_entryOf (entries ▸ entry)).1,
        childNode, childNode, parents]

theorem visible_of_eq
    (found : (K.merkle.visible self.dag)[hash]? = some node) : (K.merkle.visible dag.dag)[hash]? = some node := by
  obtain ⟨above, entry, -⟩ := tidy.entryOf_of_visible found
  obtain ⟨lookup, stored⟩ := tidy.lookup_of_entryOf entry
  have same_hash := Option.some.inj ((tidy.single found).symm.trans lookup)
  rw [← same_hash] at stored
  have same : self.childNode above node.value.key node.value.sig =
      dag.childNode above node.value.key node.value.sig := by
    rw [childNode, childNode, parentHashes, parentHashes, genesis,
      tidy.hashes_eq tidy' genesis entries above]
  have written := Option.some.inj (stored.symm.trans found)
  have shown := (tidy'.lookup_of_entryOf (entries ▸ entry)).2
  rwa [← same, ← same_hash, written] at shown

theorem ext : self = dag := by
  apply SectionsDAG.ext
  · exact genesis
  · apply tidy.grown.ext tidy'.grown
    apply ExtTreeMap.ext_getElem?
    intro hash
    refine Option.ext fun node => ⟨?_, ?_⟩
    · exact tidy.visible_of_eq tidy' genesis entries
    · exact tidy'.visible_of_eq tidy genesis.symm entries.symm
  · apply ExtTreeSet.ext_mem
    intro key
    rw [tidy.mem_dagRoot, tidy'.mem_dagRoot, parentOf, parentOf, entries, genesis]
  · exact ExtTreeMap.ext_getElem? (tidy.hashes_eq tidy' genesis entries)

end

/-! ## Insertions -/

theorem attach_known (tidy : self.Tidy) (entry : self.entryOf key = some (parentKey, signature)) :
    self.attach parentKey key signature = self := by
  obtain ⟨lookup, found⟩ := tidy.lookup_of_entryOf entry
  have parent : self.parentOf key = some parentKey := by rw [parentOf, entry, Option.map_some]
  apply SectionsDAG.ext
  · rfl
  · have grown : K.merkle.Grown (self.attach parentKey key signature).dag :=
      tidy.grown.apply (tidy.parentHashes_visible parentKey)
    apply grown.ext tidy.grown
    apply ExtTreeMap.ext_getElem?
    intro hash
    rw [tidy.getElem?_attach]
    split
    · rename_i same
      rw [← same, found]
    · rfl
  · simp only [attach]
    split
    · rename_i genesis
      apply ExtTreeSet.ext_mem
      intro other
      rw [ExtTreeSet.mem_insert, Std.compare_eq_iff_eq, or_iff_right_iff_imp]
      rintro rfl
      rw [tidy.mem_dagRoot, parent, genesis]
    · rfl
  · apply ExtTreeMap.ext_getElem?
    intro other
    simp only [attach, ExtTreeMap.getElem?_insert, Std.compare_eq_iff_eq]
    split
    · rename_i same
      rw [← same, lookup]
    · rfl

theorem attach_new (tidy : self.Tidy) (valid : K.verifySig parentKey key signature = true)
    (known : self.hasKey parentKey = true) (fresh : self.hasKey key = false) :
    (self.attach parentKey key signature).Tidy := by
  have absent : ¬ (key = self.genesisKey ∨ key ∈ self.hashes) := by
    rw [← hasKey_iff, fresh]
    simp
  obtain ⟨proper, unknown⟩ := not_or.mp absent
  have parents := tidy.parentOf_attach valid known
  rw [if_neg proper] at parents
  refine { tidy.attach valid known with single := ?_, genesis_fresh := ?_, root_parent := ?_ }
  · intro hash node found
    rw [tidy.getElem?_attach] at found
    simp only [SectionsDAG.attach, ExtTreeMap.getElem?_insert, Std.compare_eq_iff_eq]
    split at found
    · rename_i same
      obtain rfl := Option.some.inj found
      rw [← same]
      exact if_pos rfl
    · rw [if_neg, tidy.single found]
      intro same
      exact unknown (same ▸ tidy.known found)
  · rw [mem_hashes_attach]
    exact not_or.mpr ⟨proper, tidy.genesis_fresh⟩
  · intro root mem
    rw [parents, attach_genesisKey]
    by_cases same : root = key
    · subst same
      rw [Function.update_self]
      by_contra differs
      have inner : ¬ parentKey = self.genesisKey := fun genesis => differs (by rw [genesis])
      simp only [SectionsDAG.attach, if_neg inner] at mem
      exact unknown (tidy.root_known mem)
    · rw [Function.update_of_ne same]
      simp only [SectionsDAG.attach] at mem
      split at mem
      · rw [ExtTreeSet.mem_insert, Std.compare_eq_iff_eq] at mem
        exact tidy.root_parent (mem.resolve_left fun eq => same eq.symm)
      · exact tidy.root_parent mem

end Tidy

theorem tidy_new (genesisKey : K.PublicKey) : (new genesisKey : SectionsDAG K).Tidy :=
  { wellFormed_new genesisKey with
    single := by simp [new, K.merkle.visible_new]
    genesis_fresh := by simp [new]
    root_parent := by simp [new] }

theorem Distinct.tidy (distinct : self.Distinct) : self.Tidy := by
  induction distinct with
  | new genesisKey => exact tidy_new genesisKey
  | insert _ fresh inserted ih =>
    obtain ⟨valid, known, rfl⟩ := verifyAndInsert_eq_ok.mp inserted
    exact ih.attach_new valid known fresh

/-! ## Leaves -/

theorem mem_singleton {other : K.PublicKey} : key ∈ ({other} : ExtTreeSet K.PublicKey) ↔ key = other := by
  rw [eq_comm]
  simp

def keySet (self : SectionsDAG K) : Set K.PublicKey := {key | self.hasKey key = true}

theorem keySet_finite (self : SectionsDAG K) : self.keySet.Finite := by
  refine (List.finite_toSet (self.genesisKey :: self.hashes.keys)).subset fun key known => ?_
  have known := hasKey_iff.mp known
  simpa [ExtTreeMap.mem_keys] using known

namespace Tidy

theorem view (tidy : self.Tidy) : Forest.View self.parentOf self.genesisKey self.keySet where
  root_mem := hasKey_iff.mpr (Or.inl rfl)
  parent_mem := by
    intro key known proper
    obtain ⟨above, sig, entry, inside, -⟩ :=
      tidy.exists_entry proper ((hasKey_iff.mp known).resolve_left proper)
    exact ⟨above, inside, by rw [parentOf, entry, Option.map_some]⟩

theorem parent_iff (tidy : self.Tidy) {child : K.Node} (found : (K.merkle.visible self.dag)[hash]? = some node)
    (below : (K.merkle.visible self.dag)[K.merkle.hash child]? = some child) :
    hash ∈ child.children ↔ self.parentOf child.value.key = some node.value.key := by
  obtain ⟨above, entry, parent⟩ := tidy.entryOf_of_visible below
  have proper : node.value.key ≠ self.genesisKey := fun same =>
    tidy.genesis_fresh (same ▸ tidy.known found)
  have parentIs : self.parentOf child.value.key = some above := by
    rw [parentOf, entry, Option.map_some]
  rw [parentIs, Option.some.injEq]
  obtain ⟨root, rfl⟩ | ⟨upper, parentNode, one, stored, rfl, -⟩ := parent
  · simp [root, Ne.symm proper]
  · have member : hash ∈ child.children ↔ upper = hash := by simp [one]
    rw [member]
    constructor
    · rintro rfl
      rw [Option.some.inj (stored.symm.trans found)]
    · intro same
      have recorded := tidy.single stored
      rw [same] at recorded
      exact Option.some.inj (recorded.symm.trans (tidy.single found))

theorem mem_nonGenesisLeafSections (tidy : self.Tidy) : (∃ info ∈ self.nonGenesisLeafSections, info.key = key) ↔
      key ≠ self.genesisKey ∧ Forest.IsLeaf self.parentOf self.keySet key := by
  constructor
  · rintro ⟨info, mem, rfl⟩
    obtain ⟨node, read, rfl⟩ := List.mem_map.mp mem
    obtain ⟨hash, found, unnamed⟩ := tidy.grown.mem_read.mp read
    have known := tidy.known found
    refine ⟨fun same => tidy.genesis_fresh (same ▸ known), hasKey_iff.mpr (Or.inr known), ?_⟩
    intro child _ parent
    obtain ⟨sig, entry⟩ := WellFormed.entryOf_of_parentOf parent
    obtain ⟨-, stored⟩ := tidy.lookup_of_entryOf entry
    exact unnamed _ _ stored ((tidy.parent_iff found stored).mpr parent)
  · rintro ⟨proper, known, childless⟩
    have inside := (hasKey_iff.mp known).resolve_left proper
    obtain ⟨hash, node, -, found, rfl⟩ := tidy.exists_node inside
    refine ⟨node.value, List.mem_map.mpr ⟨node, tidy.grown.mem_read.mpr ⟨hash, found, ?_⟩, rfl⟩, rfl⟩
    intro hash' child stored named
    obtain rfl := tidy.grown.keyed stored
    have child_known : self.hasKey child.value.key = true :=
      hasKey_iff.mpr (Or.inr (tidy.known stored))
    exact childless child.value.key child_known ((tidy.parent_iff found stored).mp named)

/-- `leaf_keys` returns the keys without child. -/
theorem mem_leafKeys (tidy : self.Tidy) : key ∈ self.leafKeys ↔ Forest.IsLeaf self.parentOf self.keySet key := by
  have sections : ∀ {key}, (∃ info ∈ self.nonGenesisLeafSections, info.key = key) ↔ _ :=
    tidy.mem_nonGenesisLeafSections
  simp only [leafKeys]
  split
  · -- Without leaf section, the genesis key is the only key.
    rename_i empty
    rw [List.isEmpty_iff] at empty
    have only : ∀ leaf, Forest.IsLeaf self.parentOf self.keySet leaf → leaf = self.genesisKey := by
      intro leaf isLeaf
      by_contra proper
      obtain ⟨info, mem, -⟩ := sections.mpr ⟨proper, isLeaf⟩
      simp [empty] at mem
    rw [mem_singleton]
    constructor
    · rintro rfl
      obtain ⟨leaf, isLeaf, -⟩ :=
        Forest.exists_leaf tidy.ends self.keySet_finite tidy.view.root_mem
      rwa [only leaf isLeaf] at isLeaf
    · intro isLeaf
      exact only key isLeaf
  · rename_i nonempty
    have listed : key ∈ ExtTreeSet.ofList (self.nonGenesisLeafSections.map fun info => info.key) ↔
        ∃ info ∈ self.nonGenesisLeafSections, info.key = key := by
      simp [ExtTreeSet.mem_ofList]
    rw [listed, sections, and_iff_right_iff_imp]
    -- With a leaf section, the genesis key has a child.
    rintro isLeaf rfl
    obtain ⟨info, mem⟩ := List.exists_mem_of_ne_nil _ (by simpa using nonempty)
    obtain ⟨proper, inner⟩ := sections.mp ⟨info, mem, rfl⟩
    exact proper (tidy.view.leaf_eq tidy.ends isLeaf inner.1
      (tidy.view.root_above tidy.ends inner.1)).symm

end Tidy

end SafeNetwork.SectionsDAG
