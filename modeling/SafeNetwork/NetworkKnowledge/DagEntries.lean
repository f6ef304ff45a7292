import SafeNetwork.Library.Forest
import SafeNetwork.NetworkKnowledge.DagInvariant

/-!
# What a key leads to

`get_parent_key` and `get_node` follow the hash recorded for a key. For a known key other than
the genesis key they give its entry: the parent key and the parent's signature. An insertion
changes the entry of its own key and no other.
-/

namespace SafeNetwork.SectionsDAG

open Std Crdt

variable {K : KeyScheme} {self dag : SectionsDAG K} {parentKey key : K.PublicKey}
  {signature : K.Signature} {hash : K.Hash} {node : K.Node}

/-- The parent key of a key and its signature, absent for the genesis key and an unknown key. -/
def entryOf (self : SectionsDAG K) (key : K.PublicKey) : Option (K.PublicKey × K.Signature) :=
  match self.getParentKey key, self.getNode key with
  | .ok (some parent), .ok node => some (parent, node.value.sig)
  | _, _ => none

def parentOf (self : SectionsDAG K) (key : K.PublicKey) : Option K.PublicKey :=
  (self.entryOf key).map Prod.fst

theorem getParentKey_genesisKey (self : SectionsDAG K) : self.getParentKey self.genesisKey = .ok none := by
  simp [getParentKey]

@[simp] theorem entryOf_genesisKey (self : SectionsDAG K) : self.entryOf self.genesisKey = none := by
  simp [entryOf, getParentKey_genesisKey]

@[simp] theorem parentOf_genesisKey (self : SectionsDAG K) : self.parentOf self.genesisKey = none := by
  simp [parentOf]

theorem entryOf_unknown (absent : key ∉ self.hashes) : self.entryOf key = none := by
  have missing : self.hashes[key]? = none := by simpa using absent
  simp only [entryOf, getNode, getHash, missing, bind, Except.bind]
  split <;> simp_all

theorem parentOf_unknown (absent : key ∉ self.hashes) : self.parentOf key = none := by
  rw [parentOf, entryOf_unknown absent, Option.map_none]

namespace WellFormed

section

variable (wf : self.WellFormed)
include wf

theorem entryOf_eq (proper : key ≠ self.genesisKey) (lookup : self.hashes[key]? = some hash)
    (found : (K.merkle.visible self.dag)[hash]? = some node) (parent : self.HasParent node parentKey) :
    self.entryOf key = some (parentKey, node.value.sig) := by
  simp only [entryOf, wf.getParentKey_eq proper lookup found parent,
    wf.getNode_eq_ok.mpr ⟨hash, lookup, found⟩]

theorem of_entryOf (entry : self.entryOf key = some (parentKey, signature)) :
    key ≠ self.genesisKey ∧ ∃ (hash : K.Hash) (node : K.Node), self.hashes[key]? = some hash ∧
      (K.merkle.visible self.dag)[hash]? = some node ∧ node.value = ⟨key, signature⟩ ∧
      self.HasParent node parentKey := by
  have proper : key ≠ self.genesisKey := by
    rintro rfl
    simp at entry
  have known : key ∈ self.hashes := by
    by_contra absent
    simp [entryOf_unknown absent] at entry
  obtain ⟨hash, node, lookup, found, named⟩ := wf.exists_node known
  obtain ⟨above, parent, -⟩ := wf.signed found
  have same := (wf.entryOf_eq proper lookup found parent).symm.trans entry
  simp only [Option.some.injEq, Prod.mk.injEq] at same
  obtain ⟨rfl, rfl⟩ := same
  exact ⟨proper, hash, node, lookup, found, by rw [← named], parent⟩

theorem exists_entry (proper : key ≠ self.genesisKey) (known : key ∈ self.hashes) :
    ∃ parentKey signature, self.entryOf key = some (parentKey, signature) ∧
      self.hasKey parentKey = true ∧ K.verifySig parentKey key signature = true := by
  obtain ⟨hash, node, lookup, found, named⟩ := wf.exists_node known
  obtain ⟨parentKey, parent, verified⟩ := wf.signed found
  refine ⟨parentKey, node.value.sig, wf.entryOf_eq proper lookup found parent, ?_, ?_⟩
  · obtain ⟨-, genesis⟩ | ⟨above, parentNode, -, stored, rfl, -⟩ := parent
    · exact hasKey_iff.mpr (Or.inl genesis)
    · exact hasKey_iff.mpr (Or.inr (wf.known stored))
  · rwa [← named]

theorem entryOf_signed (entry : self.entryOf key = some (parentKey, signature)) :
    key ∈ self.hashes ∧ self.hasKey parentKey = true ∧
      K.verifySig parentKey key signature = true := by
  obtain ⟨proper, hash, node, lookup, -⟩ := wf.of_entryOf entry
  have known : key ∈ self.hashes := by
    rw [ExtTreeMap.mem_iff_isSome_getElem?, lookup]
    rfl
  obtain ⟨above, sig, entry', parent, verified⟩ := wf.exists_entry proper known
  obtain ⟨rfl, rfl⟩ : above = parentKey ∧ sig = signature := by
    simpa using entry'.symm.trans entry
  exact ⟨known, parent, verified⟩

theorem getParentKey_eq_parentOf (known : self.hasKey key = true) :
    self.getParentKey key = .ok (self.parentOf key) := by
  by_cases genesis : key = self.genesisKey
  · rw [genesis, parentOf_genesisKey, getParentKey_genesisKey]
  · obtain ⟨parentKey, signature, entry, -⟩ :=
      wf.exists_entry genesis ((hasKey_iff.mp known).resolve_left genesis)
    obtain ⟨-, hash, node, lookup, found, -, parent⟩ := wf.of_entryOf entry
    rw [wf.getParentKey_eq genesis lookup found parent, parentOf, entry, Option.map_some]

end

theorem entryOf_of_parentOf (parent : self.parentOf key = some parentKey) :
    ∃ signature, self.entryOf key = some (parentKey, signature) := by
  obtain ⟨⟨above, signature⟩, entry, rfl⟩ := Option.map_eq_some_iff.mp parent
  exact ⟨signature, entry⟩

theorem hasKey_of_parentOf (wf : self.WellFormed) (parent : self.parentOf key = some parentKey) :
    self.hasKey parentKey = true := by
  obtain ⟨signature, entry⟩ := entryOf_of_parentOf parent
  exact (wf.entryOf_signed entry).2.1

variable (wf : self.WellFormed) (valid : K.verifySig parentKey key signature = true)
  (known : self.hasKey parentKey = true)
include wf valid known

/-- An insertion gives its key the entry it is inserted with and changes no other. The genesis
key has no entry, also when it is inserted. -/
theorem entryOf_attach : (self.attach parentKey key signature).entryOf =
      if key = self.genesisKey then self.entryOf
      else Function.update self.entryOf key (some (parentKey, signature)) := by
  have wf' := wf.attach valid known
  have other : ∀ k, k ≠ key → (self.attach parentKey key signature).entryOf k = self.entryOf k := by
    intro k differs
    have lookup : (self.attach parentKey key signature).hashes[k]? = self.hashes[k]? := by
      simp [SectionsDAG.attach, ExtTreeMap.getElem?_insert, Ne.symm differs]
    by_cases genesis : k = self.genesisKey
    · rw [genesis, entryOf_genesisKey]
      exact entryOf_genesisKey (self.attach parentKey key signature)
    · by_cases inside : k ∈ self.hashes
      · obtain ⟨hash, node, recorded, found, -⟩ := wf.exists_node inside
        obtain ⟨above, parent, -⟩ := wf.signed found
        rw [wf.entryOf_eq genesis recorded found parent, wf'.entryOf_eq genesis
          (lookup.trans recorded) (wf.visible_attach found) (wf.hasParent_attach parent)]
      · rw [entryOf_unknown inside]
        refine entryOf_unknown ?_
        rw [mem_hashes_attach]
        exact not_or.mpr ⟨Ne.symm differs, inside⟩
  funext k
  split
  · rename_i genesis
    by_cases same : k = key
    · rw [same, genesis, entryOf_genesisKey]
      exact entryOf_genesisKey (self.attach parentKey self.genesisKey signature)
    · exact other k same
  · rename_i proper
    by_cases same : k = key
    · subst same
      have lookup : (self.attach parentKey k signature).hashes[k]? =
          some (K.merkle.hash (self.childNode parentKey k signature)) := by
        simp [SectionsDAG.attach]
      rw [Function.update_self]
      exact wf'.entryOf_eq proper lookup (by rw [wf.getElem?_attach, if_pos rfl])
        (wf.hasParent_attach (wf.hasParent_childNode known k signature))
    · rw [Function.update_of_ne same, other k same]

theorem parentOf_attach : (self.attach parentKey key signature).parentOf =
      if key = self.genesisKey then self.parentOf else Function.update self.parentOf key (some parentKey) := by
  funext k
  rw [parentOf, wf.entryOf_attach valid known]
  split
  · rfl
  · by_cases same : k = key
    · rw [same, Function.update_self, Function.update_self, Option.map_some]
    · rw [Function.update_of_ne same, Function.update_of_ne same, parentOf]

end WellFormed

end SafeNetwork.SectionsDAG
