import SafeNetwork.NetworkKnowledge.DagBranch
import SafeNetwork.NetworkKnowledge.SectionTree

/-!
# Honest histories

A history is what really happened to the sections of a network: a tree of section keys, each with
its SAP. A section churns, which gives its prefix a new key, or splits, which gives each half a key
of its own. A section tree that is fed with parts of a history sees a view of it: the DAG is a
sub-tree from the genesis key, and the map of SAPs holds those of its leaves (`Synced`). An update
brings the view a branch of the history when it starts from a key in view, and nothing otherwise.
-/

namespace SafeNetwork

open Std Forest

/-- A tree of section keys with the SAP of each key, as honest sections make it. -/
structure History (S : SectionScheme) where
  dag : SectionsDAG S.toKeyScheme
  sap : S.PublicKey → S.SignedSap
  distinct : dag.Distinct
  sap_key : ∀ {key}, dag.hasKey key = true → (sap key).sectionKey = key
  sap_signed : ∀ {key}, dag.hasKey key = true → (sap key).selfVerify S.serializeSap = true
  sap_signer : ∀ {key}, dag.hasKey key = true → (sap key).sig.publicKey = key
  genesis_prefix : (sap dag.genesisKey).sapPrefix = default
  child_prefix : ∀ {key parent}, dag.parentOf key = some parent →
    (sap key).sapPrefix = (sap parent).sapPrefix ∨
      ∃ bit, (sap key).sapPrefix = (sap parent).sapPrefix.pushed bit
  sibling_prefix : ∀ {key other parent}, dag.parentOf key = some parent →
    dag.parentOf other = some parent → key ≠ other →
    ∃ bit, (sap key).sapPrefix = (sap parent).sapPrefix.pushed bit ∧
      (sap other).sapPrefix = (sap parent).sapPrefix.pushed !bit

namespace History

variable {S : SectionScheme} {H : History S} {key leaf top upper : S.PublicKey}
  {tree tree' : SectionTree S} {chain : SectionsDAG S.toKeyScheme}
  {update : SectionTreeUpdate S} {updates : List (SectionTreeUpdate S)}

def prefixOf (H : History S) (key : S.PublicKey) : Prefix := (H.sap key).sapPrefix

/-- An update of the history: the SAP of a key and a partial DAG from one of its ancestors, or
from the key itself, to the key. -/
def IsUpdate (H : History S) (update : SectionTreeUpdate S) : Prop :=
  ∃ top key, update.signedSap = H.sap key ∧ H.dag.partialDag top key = .ok update.proofChain

theorem tidy (H : History S) : H.dag.Tidy := H.distinct.tidy

/-! ## Prefixes along the tree -/

theorem covers_of_above (above : Above H.dag.parentOf upper key) : (H.prefixOf upper).Covers (H.prefixOf key) := by
  induction above using Relation.ReflTransGen.head_induction_on with
  | refl => exact .refl
  | head goes _ ih =>
    refine ih.trans ?_
    obtain same | ⟨bit, half⟩ := H.child_prefix goes
    · rw [prefixOf, prefixOf, same]
    · rw [prefixOf, prefixOf, half]
      exact Prefix.covers_pushed _ _

/-- A key whose prefix covers that of another is above it, or below it with the same prefix: the
keys below a split have disjoint prefixes. -/
theorem above_of_covers (known : H.dag.hasKey upper = true) (known' : H.dag.hasKey key = true)
    (covers : (H.prefixOf upper).Covers (H.prefixOf key)) : Above H.dag.parentOf upper key ∨
      (H.prefixOf upper = H.prefixOf key ∧ Above H.dag.parentOf key upper) := by
  obtain above | below | ⟨x, y, c, left, right, apart, toUpper, toKey⟩ :=
    H.tidy.view.fork H.tidy.ends known known'
  · exact Or.inl above
  · exact Or.inr ⟨covers.antisymm (covers_of_above below), below⟩
  · obtain ⟨bit, first, second⟩ := H.sibling_prefix left right apart
    have inFirst : ((H.prefixOf c).pushed bit).Covers (H.prefixOf key) :=
      first ▸ (covers_of_above toUpper).trans covers
    have inSecond : ((H.prefixOf c).pushed !bit).Covers (H.prefixOf key) :=
      second ▸ covers_of_above toKey
    exact absurd inSecond (Prefix.pushed_disjoint inFirst)

/-! ## Section trees in step with a history -/

/-- A section tree that sees a part of a history from the genesis key on: its DAG is a sub-tree,
and its map holds the SAPs of the leaves. -/
structure Synced (H : History S) (tree : SectionTree S) : Prop where
  embedded : tree.sectionsDag.Embedded H.dag
  genesis : tree.sectionsDag.genesisKey = H.dag.genesisKey
  sections : ∀ {known : Prefix} {sap : S.SignedSap}, tree.getSigned known = some sap ↔
    ∃ leaf, IsLeaf H.dag.parentOf tree.sectionsDag.keySet leaf ∧ H.sap leaf = sap ∧
      H.prefixOf leaf = known

theorem synced_new (built : SectionTree.new (H.sap H.dag.genesisKey) = .ok tree) : H.Synced tree := by
  have known : H.dag.hasKey H.dag.genesisKey = true := SectionsDAG.hasKey_iff.mpr (Or.inl rfl)
  obtain ⟨root, rfl⟩ := SectionTree.new_eq_ok.mp built
  rw [H.sap_key known]
  have alone : (SectionsDAG.new H.dag.genesisKey : SectionsDAG S.toKeyScheme).keySet =
      branch H.dag.parentOf H.dag.genesisKey H.dag.genesisKey :=
    Set.ext (SectionsDAG.isBranch_new H.tidy known).hasKey_iff
  refine ⟨SectionsDAG.embedded_new known, rfl, ?_⟩
  intro wanted sap
  simp only [alone, isLeaf_branch H.tidy.ends .refl, exists_eq_left, SectionTree.getSigned,
    ExtTreeMap.getElem?_insert, Std.compare_eq_iff_eq, ExtTreeMap.getElem?_empty, prefixOf, root]
  by_cases here : default = wanted <;> simp [here]

namespace Synced

section

variable (synced : H.Synced tree)
include synced

theorem hasKey_genesis : tree.sectionsDag.hasKey H.dag.genesisKey = true :=
  SectionsDAG.hasKey_iff.mpr (Or.inl synced.genesis.symm)

theorem hasKey_whole (known : tree.sectionsDag.hasKey key = true) :
    H.dag.hasKey key = true := synced.embedded.hasKey H.tidy known

theorem sap_key (known : tree.sectionsDag.hasKey key = true) :
    (H.sap key).sectionKey = key := H.sap_key (synced.hasKey_whole known)

theorem hasKey_of_above (known : tree.sectionsDag.hasKey key = true)
    (whole : H.dag.hasKey upper = true) (above : Above H.dag.parentOf upper key) :
    tree.sectionsDag.hasKey upper = true := by
  refine synced.embedded.view.mem_of_above H.tidy.ends known above ?_
  rw [synced.genesis]
  exact H.tidy.view.root_above H.tidy.ends whole

theorem leaf_above
    (seen : IsLeaf H.dag.parentOf tree.sectionsDag.keySet leaf) (whole : H.dag.hasKey key = true)
    (fresh : tree.sectionsDag.hasKey key = false)
    (covers : (H.prefixOf leaf).Covers (H.prefixOf key)) : Above H.dag.parentOf leaf key := by
  obtain above | ⟨-, below⟩ :=
    above_of_covers (synced.hasKey_whole seen.1) whole covers
  · exact above
  · rw [synced.hasKey_of_above seen.1 whole below] at fresh
    cases fresh

end

theorem update_known (known : tree.sectionsDag.hasKey key = true) (whole : H.dag.hasKey key = true)
    (update_sap : update.signedSap = H.sap key) : tree.updateTheSectionTree update = (.ok false, tree) := by
  simp [SectionTree.updateTheSectionTree, update_sap, H.sap_key whole, known]

section

variable (synced : H.Synced tree) (whole : H.dag.hasKey key = true) (fresh : tree.sectionsDag.hasKey key = false)
  (update_sap : update.signedSap = H.sap key) (is : SectionsDAG.IsBranch H.dag update.proofChain top key)
include synced whole fresh update_sap is

theorem accepts
    (trusted : tree.sectionsDag.hasKey top = true) : tree.Accepts update where
  fresh := by rw [update_sap, H.sap_key whole, fresh]
  covered := by
    intro sap found
    rw [update_sap] at found
    obtain ⟨leaf, seen, rfl, same⟩ := synced.sections.mp found
    rw [synced.sap_key seen.1, is.hasKey_iff]
    -- The leaf is above the key; the start of the branch is in view, so not below the leaf.
    have lower := synced.leaf_above seen whole fresh (by rw [same]; rfl)
    obtain upper | below := is.above.total lower
    · exact ⟨upper, lower⟩
    · obtain rfl := synced.embedded.view.leaf_eq H.tidy.ends seen trusted below
      exact ⟨.refl, lower⟩
  trusted := by
    intro _
    simp only [SectionsDAG.checkTrust, List.any_eq_true, beq_iff_eq]
    exact ⟨top, synced.embedded.tidy.mem_keys.mpr trusted, is.genesis.symm⟩
  verified := by rw [update_sap, H.sap_signed whole]
  own_key := by rw [update_sap, H.sap_signer whole, H.sap_key whole]
  last_key := by rw [update_sap, H.sap_key whole, is.lastKey H.tidy]
  no_extension := by
    by_contra extension
    rw [Bool.not_eq_false, update_sap, SectionTree.hasExtension_iff] at extension
    obtain ⟨known, mem, covers, proper⟩ := extension
    obtain ⟨sap, found⟩ := SectionTree.mem_sections.mp mem
    obtain ⟨leaf, seen, -, rfl⟩ := synced.sections.mp found
    obtain above | ⟨same, -⟩ :=
      above_of_covers whole (synced.hasKey_whole seen.1) covers
    · rw [synced.hasKey_of_above seen.1 whole above] at fresh
      cases fresh
    · exact proper same

theorem update_new (trusted : tree.sectionsDag.hasKey top = true) :
    ∃ tree', tree.updateTheSectionTree update = (.ok true, tree') ∧ H.Synced tree' ∧
      tree'.sectionsDag.keySet = tree.sectionsDag.keySet ∪ branch H.dag.parentOf top key := by
  have linked : tree.sectionsDag.hasKey update.proofChain.genesisKey = true := by
    rw [is.genesis, trusted]
  obtain ⟨dag, merged, within, genesis, keys⟩ :=
    synced.embedded.merge (is.embedded H.tidy) H.tidy (Or.inl linked)
  have seen : dag.keySet = tree.sectionsDag.keySet ∪ branch H.dag.parentOf top key :=
    Set.ext fun other => (keys other).trans (or_congr_right (is.hasKey_iff other))
  have updated := SectionTree.update_accepted (synced.accepts whole fresh update_sap is trusted)
  rw [merged] at updated
  have absent : key ∉ tree.sectionsDag.keySet := fun known => by
    rw [show tree.sectionsDag.hasKey key = true from known] at fresh
    cases fresh
  refine ⟨_, updated, ⟨within, ?_, ?_⟩, seen⟩
  · rw [genesis, linked, if_pos rfl, synced.genesis]
  · intro known sap
    rw [seen, SectionTree.getSigned, SectionTree.getElem?_placed, update_sap]
    change (if known = H.prefixOf key then some (H.sap key)
      else if known.Covers (H.prefixOf key) then none else tree.getSigned known) = some sap ↔ _
    simp only [isLeaf_union_branch H.tidy.ends synced.embedded.view trusted is.above absent]
    constructor
    · intro found
      split_ifs at found with same covers
      · exact ⟨key, Or.inl rfl, Option.some.inj found, same.symm⟩
      · obtain ⟨leaf, leafSeen, rfl, rfl⟩ := synced.sections.mp found
        exact ⟨leaf, Or.inr ⟨leafSeen, fun above => covers (covers_of_above above)⟩, rfl, rfl⟩
    · rintro ⟨leaf, rfl | ⟨leafSeen, apart⟩, rfl, rfl⟩
      · exact if_pos rfl
      · have outside : ¬ (H.prefixOf leaf).Covers (H.prefixOf key) := fun covers =>
          apart (synced.leaf_above leafSeen whole fresh covers)
        rw [if_neg, if_neg outside]
        · exact synced.sections.mpr ⟨leaf, leafSeen, rfl, rfl⟩
        · intro same
          exact outside (same ▸ .refl)

theorem update_untrusted (untrusted : tree.sectionsDag.hasKey top = false) :
    ∃ error, tree.updateTheSectionTree update = (.error error, tree) := by
  have start : H.dag.hasKey top = true := by
    rw [← is.genesis]
    exact (is.embedded H.tidy).genesis_known
  cases checks : tree.verifyUpdate update with
  | error error =>
    refine ⟨error, ?_⟩
    simp [SectionTree.updateTheSectionTree, checks, update_sap, H.sap_key whole, fresh]
  | ok _ =>
    -- Either check of the chain would bring its start into view.
    obtain ⟨covered, trusted, -⟩ := SectionTree.verifyUpdate_eq_ok.mp checks
    exfalso
    cases found : tree.getSigned update.signedSap.sapPrefix with
    | none =>
      have listed := trusted found
      simp only [SectionsDAG.checkTrust, List.any_eq_true, beq_iff_eq, is.genesis, exists_eq_right,
        synced.embedded.tidy.mem_keys, untrusted] at listed
      cases listed
    | some sap =>
      obtain ⟨leaf, seen, rfl, -⟩ := synced.sections.mp found
      have inside := covered _ found
      rw [synced.sap_key seen.1, is.hasKey_iff] at inside
      rw [synced.hasKey_of_above seen.1 start inside.1] at untrusted
      cases untrusted

end

section

variable (synced : H.Synced tree) (whole : H.dag.hasKey key = true) (update_sap : update.signedSap = H.sap key)
  (is : SectionsDAG.IsBranch H.dag update.proofChain top key)
include synced whole update_sap is

theorem update_cases :
    (tree.sectionsDag.hasKey key = true ∧ tree.updateTheSectionTree update = (.ok false, tree)) ∨
    (tree.Accepts update ∧ tree.sectionsDag.hasKey top = true ∧
      ∃ tree', tree.updateTheSectionTree update = (.ok true, tree') ∧ H.Synced tree' ∧
        tree'.sectionsDag.keySet = tree.sectionsDag.keySet ∪ branch H.dag.parentOf top key) ∨
    (tree.sectionsDag.hasKey top = false ∧
      ∃ error, tree.updateTheSectionTree update = (.error error, tree)) := by
  cases fresh : tree.sectionsDag.hasKey key with
  | true => exact Or.inl ⟨rfl, update_known fresh whole update_sap⟩
  | false =>
    right
    cases trusted : tree.sectionsDag.hasKey top with
    | true =>
      exact Or.inl ⟨synced.accepts whole fresh update_sap is trusted, rfl,
        synced.update_new whole fresh update_sap is trusted⟩
    | false => exact Or.inr ⟨rfl, synced.update_untrusted whole fresh update_sap is trusted⟩

theorem step : H.Synced (tree.updateTheSectionTree update).2 ∧
      (tree.updateTheSectionTree update).2.sectionsDag.keySet =
        learn H.dag.parentOf tree.sectionsDag.keySet top key := by
  obtain ⟨known, same⟩ | ⟨-, trusted, tree', updated, synced', keys⟩ | ⟨untrusted, error, same⟩ :=
    synced.update_cases whole update_sap is
  · rw [same, synced.embedded.view.learn_known H.tidy.ends known]
    exact ⟨synced, rfl⟩
  · have seen : top ∈ tree.sectionsDag.keySet := trusted
    rw [updated, keys, learn_trusted seen]
    exact ⟨synced', rfl⟩
  · have unseen : top ∉ tree.sectionsDag.keySet := by simp [SectionsDAG.keySet, untrusted]
    rw [same, learn_untrusted unseen]
    exact ⟨synced, rfl⟩

theorem update_ok
    (trusted : tree.sectionsDag.hasKey top = true) : (∃ changed, (tree.updateTheSectionTree update).1 = .ok changed) ∧
      (tree.updateTheSectionTree update).2.sectionsDag.hasKey key = true := by
  have shown : key ∈ learn H.dag.parentOf tree.sectionsDag.keySet top key :=
    Or.inr ⟨trusted, is.above, .refl⟩
  rw [← (synced.step whole update_sap is).2] at shown
  refine ⟨?_, shown⟩
  obtain ⟨-, same⟩ | ⟨-, -, tree', updated, -⟩ | ⟨untrusted, -⟩ :=
    synced.update_cases whole update_sap is
  · exact ⟨false, by rw [same]⟩
  · exact ⟨true, by rw [updated]⟩
  · rw [trusted] at untrusted
    cases untrusted

end

variable (synced : H.Synced tree)
include synced

theorem exists_key {known : Prefix} {sap : S.SignedSap}
    (found : tree.getSigned known = some sap) :
    ∃ key, tree.sectionsDag.hasKey key = true ∧ sap = H.sap key ∧ H.prefixOf key = known := by
  obtain ⟨leaf, seen, rfl, same⟩ := synced.sections.mp found
  exact ⟨leaf, seen.1, rfl, same⟩

theorem antichain {known other : Prefix} {sap sap' : S.SignedSap}
    (found : tree.getSigned known = some sap) (found' : tree.getSigned other = some sap')
    (covers : known.Covers other) : known = other := by
  obtain ⟨leaf, seen, -, rfl⟩ := synced.sections.mp found
  obtain ⟨leaf', seen', -, rfl⟩ := synced.sections.mp found'
  obtain above | ⟨same, -⟩ :=
    above_of_covers (synced.hasKey_whole seen.1) (synced.hasKey_whole seen'.1) covers
  · rw [synced.embedded.view.leaf_eq H.tidy.ends seen seen'.1 above]
  · exact same

theorem exists_covered (known : tree.sectionsDag.hasKey key = true) :
    ∃ other sap, tree.getSigned other = some sap ∧ (H.prefixOf key).Covers other := by
  obtain ⟨leaf, seen, below⟩ := exists_leaf H.tidy.ends tree.sectionsDag.keySet_finite known
  exact ⟨_, _, synced.sections.mpr ⟨leaf, seen, rfl, rfl⟩, covers_of_above below⟩

theorem isBranch (returned : tree.sectionsDag.partialDag top key = .ok chain) :
    SectionsDAG.IsBranch H.dag chain top key :=
  (synced.embedded.tidy.partialDag_eq_ok.mp returned).of_embedded synced.embedded H.tidy

theorem exists_chain (known : tree.sectionsDag.hasKey key = true) :
    ∃ chain, tree.sectionsDag.partialDag tree.genesisKey key = .ok chain ∧
      SectionsDAG.IsBranch H.dag chain H.dag.genesisKey key := by
  have tidy := synced.embedded.tidy
  obtain ⟨chain, returned, -⟩ :=
    tidy.exists_partialDag known (tidy.view.root_above tidy.ends known)
  exact ⟨chain, returned, synced.genesis ▸ synced.isBranch returned⟩

end Synced

theorem IsUpdate.exists_branch (honest : H.IsUpdate update) :
    ∃ top key, H.dag.hasKey key = true ∧ update.signedSap = H.sap key ∧
      SectionsDAG.IsBranch H.dag update.proofChain top key := by
  obtain ⟨top, key, same, returned⟩ := honest
  have is := H.tidy.partialDag_eq_ok.mp returned
  exact ⟨top, key, (is.embedded H.tidy).hasKey H.tidy is.hasKey_bottom, same, is⟩

/-! ## Whole runs -/

namespace Synced

variable (synced : H.Synced tree)
include synced

theorem run (honest : ∀ update ∈ updates, H.IsUpdate update) : H.Synced (tree.run updates) ∧
      tree.sectionsDag.keySet ⊆ (tree.run updates).sectionsDag.keySet := by
  induction updates generalizing tree with
  | nil => exact ⟨synced, Set.Subset.rfl⟩
  | cons update rest ih =>
    obtain ⟨top, key, whole, same, is⟩ := (honest update List.mem_cons_self).exists_branch
    obtain ⟨next, keys⟩ := synced.step whole same is
    obtain ⟨later, more⟩ := ih next fun other mem => honest other (List.mem_cons_of_mem _ mem)
    have kept : tree.sectionsDag.keySet ⊆
        (tree.updateTheSectionTree update).2.sectionsDag.keySet := by
      rw [keys]
      exact fun _ => Or.inl
    exact ⟨later, kept.trans more⟩

theorem hasKey_run (honest : ∀ update ∈ updates, H.IsUpdate update)
    (mem : update ∈ updates) (update_sap : update.signedSap = H.sap key)
    (is : SectionsDAG.IsBranch H.dag update.proofChain H.dag.genesisKey key) :
    (tree.run updates).sectionsDag.hasKey key = true := by
  induction updates generalizing tree with
  | nil => cases mem
  | cons first rest ih =>
    have later : ∀ update ∈ rest, H.IsUpdate update := fun other inside =>
      honest other (List.mem_cons_of_mem _ inside)
    obtain ⟨top, bottom, whole, same, is'⟩ := (honest first List.mem_cons_self).exists_branch
    have next := (synced.step whole same is').1
    obtain rfl | mem := List.mem_cons.mp mem
    · have known := (is.embedded H.tidy).hasKey H.tidy is.hasKey_bottom
      exact (next.run later).2 (synced.update_ok known update_sap is synced.hasKey_genesis).2
    · exact ih next later mem

theorem mem_sectionKeys : key ∈ tree.sectionKeys ↔ key ∈ tree.sectionsDag.leafKeys := by
  rw [synced.embedded.mem_leafKeys H.tidy]
  simp only [SectionTree.sectionKeys, List.mem_map, Prod.exists,
    ExtTreeMap.mem_toList_iff_getElem?_eq_some]
  constructor
  · rintro ⟨known, sap, found, rfl⟩
    obtain ⟨leaf, seen, rfl, -⟩ := synced.sections.mp found
    rwa [synced.sap_key seen.1]
  · intro seen
    exact ⟨H.prefixOf key, H.sap key, synced.sections.mpr ⟨key, seen, rfl, rfl⟩,
      synced.sap_key seen.1⟩

theorem ext (synced' : H.Synced tree')
    (same : tree.sectionsDag = tree'.sectionsDag) : tree.sections = tree'.sections := by
  apply ExtTreeMap.ext_getElem?
  intro known
  refine Option.ext fun sap => ?_
  change tree.getSigned known = some sap ↔ tree'.getSigned known = some sap
  rw [synced.sections, synced'.sections, same]

end Synced

/-- After any updates of the history, in any order and with any repeats, the section keys of the
map are the leaf keys of the DAG. -/
theorem sectionKeys_run (built : SectionTree.new (H.sap H.dag.genesisKey) = .ok tree)
    (honest : ∀ update ∈ updates, H.IsUpdate update) (key : S.PublicKey) :
    key ∈ (tree.run updates).sectionKeys ↔ key ∈ (tree.run updates).sectionsDag.leafKeys :=
  ((synced_new built).run honest).1.mem_sectionKeys

/-- The updates contain, for each leaf of the history, its SAP with the branch from the genesis
key. -/
def Delivered (H : History S) (updates : List (SectionTreeUpdate S)) : Prop :=
  ∀ leaf ∈ H.dag.leafKeys, ∃ update ∈ updates, update.signedSap = H.sap leaf ∧
    H.dag.partialDag H.dag.genesisKey leaf = .ok update.proofChain

theorem Synced.run_delivered (synced : H.Synced tree)
    (honest : ∀ update ∈ updates, H.IsUpdate update) (delivered : H.Delivered updates) :
    (tree.run updates).sectionsDag = H.dag := by
  have later := (synced.run honest).1
  refine later.embedded.eq_whole H.tidy fun key known => ?_
  obtain ⟨leaf, seen, below⟩ := exists_leaf H.tidy.ends H.dag.keySet_finite known
  obtain ⟨update, mem, same, returned⟩ := delivered leaf (H.tidy.mem_leafKeys.mpr seen)
  have reached := synced.hasKey_run honest mem same (H.tidy.partialDag_eq_ok.mp returned)
  exact later.hasKey_of_above reached known below

/-- Two trees from the same genesis SAP that were each given every leaf of the history, in any
order, with any repeats and among any other updates of it, are equal and hold the whole history. -/
theorem run_converges (built : SectionTree.new (H.sap H.dag.genesisKey) = .ok tree)
    {updates' : List (SectionTreeUpdate S)} (honest : ∀ update ∈ updates, H.IsUpdate update)
    (honest' : ∀ update ∈ updates', H.IsUpdate update) (delivered : H.Delivered updates)
    (delivered' : H.Delivered updates') : (tree.run updates).sections = (tree.run updates').sections ∧
      (tree.run updates).sectionsDag = H.dag ∧ (tree.run updates').sectionsDag = H.dag := by
  have synced := synced_new built
  have whole := synced.run_delivered honest delivered
  have whole' := synced.run_delivered honest' delivered'
  exact ⟨(synced.run honest).1.ext (synced.run honest').1 (whole.trans whole'.symm), whole, whole'⟩

end History

/-! ## A sample history -/

/-- The genesis section splits into the halves of keys `1` and `3`, and the first churns to `2`. -/
def sampleBits : Nat → List Bool
  | 0 => []
  | 3 => [true]
  | _ => [false]

theorem sampleTree_parentOf {key parent : Nat} (goes : SectionsDAG.sampleTree.parentOf key = some parent) :
    (key = 1 ∧ parent = 0) ∨ (key = 2 ∧ parent = 1) ∨ (key = 3 ∧ parent = 0) := by
  have tidy := SectionsDAG.sampleTree_distinct.tidy
  have listed := tidy.mem_keys.mpr (tidy.hasKey_iff_parentOf.mpr (Or.inr (by rw [goes]; rfl)))
  have keys : SectionsDAG.sampleTree.keys = [0, 1, 2, 3] := rfl
  rw [keys] at listed
  fin_cases listed
  · cases goes
  · exact Or.inl ⟨rfl, (Option.some.inj goes).symm⟩
  · exact Or.inr (Or.inl ⟨rfl, (Option.some.inj goes).symm⟩)
  · exact Or.inr (Or.inr ⟨rfl, (Option.some.inj goes).symm⟩)

def sampleHistory : History sampleScheme where
  dag := SectionsDAG.sampleTree
  sap key := sampleSap key (sampleBits key)
  distinct := SectionsDAG.sampleTree_distinct
  sap_key _ := rfl
  sap_signed _ := by simp [sampleSap, SectionSigned.selfVerify, SectionSig.verify, sampleSig]
  sap_signer _ := rfl
  genesis_prefix := rfl
  child_prefix := by
    intro key parent goes
    obtain ⟨rfl, rfl⟩ | ⟨rfl, rfl⟩ | ⟨rfl, rfl⟩ := sampleTree_parentOf goes
    · exact Or.inr ⟨false, rfl⟩
    · exact Or.inl rfl
    · exact Or.inr ⟨true, rfl⟩
  sibling_prefix := by
    intro key other parent goes goes' apart
    obtain ⟨rfl, rfl⟩ | ⟨rfl, rfl⟩ | ⟨rfl, rfl⟩ := sampleTree_parentOf goes
    · obtain ⟨rfl, -⟩ | ⟨-, differs⟩ | ⟨rfl, -⟩ := sampleTree_parentOf goes'
      · exact absurd rfl apart
      · cases differs
      · exact ⟨false, rfl, rfl⟩
    · obtain ⟨-, differs⟩ | ⟨rfl, -⟩ | ⟨-, differs⟩ := sampleTree_parentOf goes'
      · cases differs
      · exact absurd rfl apart
      · cases differs
    · obtain ⟨rfl, -⟩ | ⟨-, differs⟩ | ⟨rfl, -⟩ := sampleTree_parentOf goes'
      · exact ⟨true, rfl, rfl⟩
      · cases differs
      · exact absurd rfl apart

theorem sampleHistory_built :
    SectionTree.new (sampleHistory.sap sampleHistory.dag.genesisKey) = .ok sampleGenesis := rfl

/-- Key `2` with its branch from key `1`. -/
def sampleLate : SectionTreeUpdate sampleScheme where
  signedSap := sampleSap 2 [false]
  proofChain := SectionsDAG.sampleLower

/-- Key `2` with its branch from the genesis key. -/
def sampleFirstHalf : SectionTreeUpdate sampleScheme where
  signedSap := sampleSap 2 [false]
  proofChain := SectionsDAG.sampleChain

/-- Key `3` with its branch from the genesis key. -/
def sampleSecondHalf : SectionTreeUpdate sampleScheme where
  signedSap := sampleSap 3 [true]
  proofChain := (SectionsDAG.new 0 : SectionsDAG sampleKeys).attach 0 3 (sampleSig 0 3)

theorem sampleLate_isUpdate : sampleHistory.IsUpdate sampleLate := ⟨(1 : Nat), (2 : Nat), rfl, rfl⟩

theorem sampleFirstHalf_isUpdate : sampleHistory.IsUpdate sampleFirstHalf :=
  ⟨(0 : Nat), (2 : Nat), rfl, rfl⟩

theorem sampleSecondHalf_isUpdate : sampleHistory.IsUpdate sampleSecondHalf :=
  ⟨(0 : Nat), (3 : Nat), rfl, rfl⟩

theorem sampleHistory_delivered {updates : List (SectionTreeUpdate sampleScheme)}
    (first : sampleFirstHalf ∈ updates) (second : sampleSecondHalf ∈ updates) : sampleHistory.Delivered updates := by
  intro leaf mem
  have leaves : sampleHistory.dag.leafKeys.toList = [(2 : Nat), (3 : Nat)] := rfl
  rw [← ExtTreeSet.mem_toList, leaves] at mem
  obtain rfl | mem := List.mem_cons.mp mem
  · exact ⟨sampleFirstHalf, first, rfl, rfl⟩
  · obtain rfl := List.mem_singleton.mp mem
    exact ⟨sampleSecondHalf, second, rfl, rfl⟩

namespace History

theorem sectionKeys_run_sampleLate : (sampleGenesis.updateTheSectionTree sampleLate).1 =
      .error (.untrustedProofChain "None of the keys were found on our section chain") ∧
    (sampleGenesis.run [sampleLate, sampleSecondHalf, sampleFirstHalf]).sectionKeys = [(2 : Nat), (3 : Nat)] ∧
    ∀ key : Nat, key ∈ (sampleGenesis.run [sampleLate, sampleSecondHalf, sampleFirstHalf]).sectionKeys ↔
        key ∈ (sampleGenesis.run [sampleLate, sampleSecondHalf, sampleFirstHalf]).sectionsDag.leafKeys := by
  refine ⟨rfl, rfl, sectionKeys_run sampleHistory_built ?_⟩
  simp [sampleLate_isUpdate, sampleSecondHalf_isUpdate, sampleFirstHalf_isUpdate]

theorem run_converges_sampleLate : (sampleGenesis.run [sampleFirstHalf, sampleSecondHalf]).sections =
        (sampleGenesis.run [sampleLate, sampleSecondHalf, sampleFirstHalf]).sections ∧
      (sampleGenesis.run [sampleFirstHalf, sampleSecondHalf]).sectionsDag = SectionsDAG.sampleTree ∧
      (sampleGenesis.run [sampleLate, sampleSecondHalf, sampleFirstHalf]).sectionsDag = SectionsDAG.sampleTree := by
  refine run_converges sampleHistory_built ?_ ?_ (sampleHistory_delivered ?_ ?_)
    (sampleHistory_delivered ?_ ?_)
  all_goals simp [sampleLate_isUpdate, sampleSecondHalf_isUpdate, sampleFirstHalf_isUpdate]

end History

end SafeNetwork
