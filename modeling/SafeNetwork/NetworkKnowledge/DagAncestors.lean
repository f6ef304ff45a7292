import SafeNetwork.NetworkKnowledge.DagEntries
import SafeNetwork.NetworkKnowledge.DagMerge
import SafeNetwork.NetworkKnowledge.SampleKeys

/-!
# Ancestors of a section key

`get_ancestors` walks from a key to its parent key until the genesis key. The parent of a key is
found through the hash recorded for it, which a later insertion of the same key replaces. So the
walk is one along a partial function of keys, of which each insertion changes one value. It ends
from every key as long as no key is inserted under itself or under one of its descendants;
`verify_and_insert` and `merge` do not exclude that, and then the loop does not return.
-/

namespace SafeNetwork.SectionsDAG

open Std Crdt Walk

variable {K : KeyScheme} {self other dag : SectionsDAG K} {parentKey key : K.PublicKey}
  {signature : K.Signature} {ancestors : List K.PublicKey}

/-- `ancestor` is `key` or is reached from it by going from parent to parent. -/
def AncestorOrSelf (self : SectionsDAG K) (ancestor key : K.PublicKey) : Prop :=
  Forest.Above self.parentOf ancestor key

namespace WellFormed

/-! ## The loop of `get_ancestors` -/

section

variable (wf : self.WellFormed) (known : self.hasKey key = true)
include wf known

theorem getAncestorsLoop_path
    (path : Path self.parentOf key ancestors) (bound : Nat) (enough : ancestors.length < bound) :
    self.getAncestorsLoop bound key = .ok ancestors := by
  induction path generalizing bound with
  | @stop key ends =>
    obtain ⟨bound, rfl⟩ := Nat.exists_eq_succ_of_ne_zero (Nat.ne_zero_of_lt enough)
    simp [getAncestorsLoop, wf.getParentKey_eq_parentOf known, ends, bind, Except.bind]
  | @step key parent ancestors goes _ ih =>
    obtain ⟨bound, rfl⟩ := Nat.exists_eq_succ_of_ne_zero (Nat.ne_zero_of_lt enough)
    have rest := ih (wf.hasKey_of_parentOf goes) bound (by simpa using enough)
    simp [getAncestorsLoop, wf.getParentKey_eq_parentOf known, goes, rest, bind, Except.bind]

theorem path_of_getAncestorsLoop
    (bound : Nat) (returned : self.getAncestorsLoop bound key = .ok ancestors) :
    Path self.parentOf key ancestors := by
  induction bound generalizing key ancestors with
  | zero => simp [getAncestorsLoop] at returned
  | succ bound ih =>
    simp only [getAncestorsLoop, wf.getParentKey_eq_parentOf known, bind, Except.bind] at returned
    cases parent : self.parentOf key with
    | none =>
      rw [parent] at returned
      obtain rfl := Except.ok.inj returned
      exact .stop parent
    | some above =>
      rw [parent] at returned
      cases rest : self.getAncestorsLoop bound above with
      | error error => simp [rest] at returned
      | ok later =>
        simp only [rest, Except.ok.injEq] at returned
        subst returned
        exact .step parent (ih (wf.hasKey_of_parentOf parent) rest)

theorem getAncestorsLoop_error
    (bound : Nat) {error : Error K.PublicKey}
    (failed : self.getAncestorsLoop bound key = .error error) : error = .diverged := by
  induction bound generalizing key with
  | zero => exact (Except.error.inj failed).symm
  | succ bound ih =>
    simp only [getAncestorsLoop, wf.getParentKey_eq_parentOf known, bind, Except.bind] at failed
    cases parent : self.parentOf key with
    | none => simp [parent] at failed
    | some above =>
      rw [parent] at failed
      cases rest : self.getAncestorsLoop bound above with
      | ok later => simp [rest] at failed
      | error error' =>
        simp only [rest, Except.error.injEq] at failed
        subst failed
        exact ih (wf.hasKey_of_parentOf parent) rest

theorem hasKey_of_path
    (path : Path self.parentOf key ancestors) : ∀ passed ∈ key :: ancestors, self.hasKey passed = true := by
  induction path with
  | stop => simpa using known
  | step goes _ ih =>
    intro passed mem
    obtain rfl | later := List.mem_cons.mp mem
    · exact known
    · exact ih (wf.hasKey_of_parentOf goes) passed later

end

theorem path_length_le (path : Path self.parentOf key ancestors) : ancestors.length ≤ self.hashes.size := by
  have inside : (key :: ancestors).dropLast ⊆ self.hashes.keys := by
    intro passed mem
    rw [ExtTreeMap.mem_keys]
    by_contra absent
    have some := path.dropLast_isSome passed mem
    rw [parentOf_unknown absent] at some
    cases some
  have nodup := path.nodup.sublist (List.dropLast_sublist (key :: ancestors))
  have bounded := (List.subperm_of_subset nodup inside).length_le
  rw [ExtTreeMap.length_keys] at bounded
  simpa using bounded

theorem getAncestors_eq_ok (wf : self.WellFormed) (known : self.hasKey key = true) :
    self.getAncestors key = .ok ancestors ↔ Path self.parentOf key ancestors := by
  constructor
  · exact wf.path_of_getAncestorsLoop known _
  · intro path
    exact wf.getAncestorsLoop_path known path _ (Nat.lt_succ_of_le (path_length_le path))

theorem getAncestorsLoop_diverged (wf : self.WellFormed) (known : self.hasKey key = true)
    (endless : ∀ ancestors, ¬ Path self.parentOf key ancestors) (bound : Nat) :
    self.getAncestorsLoop bound key = .error .diverged := by
  cases result : self.getAncestorsLoop bound key with
  | ok ancestors => exact absurd (wf.path_of_getAncestorsLoop known bound result) (endless ancestors)
  | error error => rw [wf.getAncestorsLoop_error known bound result]

end WellFormed

/-! ## Self verification -/

namespace WellFormed

/-- The inner loop of `self_verify` accepts a key whose walk to the genesis key ends. -/
theorem selfVerifyLoop_path (wf : self.WellFormed) (path : Path self.parentOf key ancestors)
    (known : key ∈ self.hashes) (proper : key ≠ self.genesisKey)
    {verifiedKeys : ExtTreeSet K.PublicKey} (trusted : self.genesisKey ∈ verifiedKeys) (bound : Nat)
    (enough : ancestors.length ≤ bound) :
    ∃ verifiedKeys', self.selfVerifyLoop bound verifiedKeys key = (true, verifiedKeys') ∧
      self.genesisKey ∈ verifiedKeys' := by
  induction path generalizing bound verifiedKeys with
  | @stop key ends =>
    obtain ⟨parentKey, signature, entry, -⟩ := wf.exists_entry proper known
    simp [parentOf, entry] at ends
  | @step key parent ancestors goes _ ih =>
    obtain ⟨bound, rfl⟩ := Nat.exists_eq_succ_of_ne_zero (Nat.ne_zero_of_lt enough)
    obtain ⟨signature, entry⟩ := entryOf_of_parentOf goes
    obtain ⟨-, parentKnown, verified⟩ := wf.entryOf_signed entry
    obtain ⟨-, hash, node, lookup, found, value, above⟩ := wf.of_entryOf entry
    have kept : self.genesisKey ∈ verifiedKeys.insert key := by
      rw [ExtTreeSet.mem_insert]
      exact Or.inr trusted
    simp only [selfVerifyLoop, wf.getParentKey_eq proper lookup found above,
      wf.getNode_eq_ok.mpr ⟨hash, lookup, found⟩, value, verified, ↓reduceIte]
    split
    · exact ⟨_, rfl, kept⟩
    · rename_i unverified
      have inner : parent ≠ self.genesisKey := by
        rintro rfl
        exact unverified (ExtTreeSet.contains_iff_mem.mpr kept)
      exact ih ((hasKey_iff.mp parentKnown).resolve_left inner) inner kept bound
        (by simpa using enough)

/-- A well-formed DAG without circles, in which the genesis key has not been inserted, verifies
itself. -/
theorem selfVerify_of_ends (wf : self.WellFormed) (ends : Forest.Ends self.parentOf)
    (fresh : self.genesisKey ∉ self.hashes) : self.selfVerify = true := by
  have leaves : ∀ (sections : List (SectionInfo K.PublicKey K.Signature)),
      (∀ info ∈ sections, info.key ∈ self.hashes) → ∀ verifiedKeys : ExtTreeSet K.PublicKey,
      self.genesisKey ∈ verifiedKeys → self.selfVerifyLeaves verifiedKeys sections = true := by
    intro sections
    induction sections with
    | nil => exact fun _ _ _ => rfl
    | cons leaf rest ih =>
      intro known verifiedKeys trusted
      have here := known leaf List.mem_cons_self
      obtain ⟨ancestors, path⟩ := ends leaf.key
      obtain ⟨verifiedKeys', accepted, kept⟩ := wf.selfVerifyLoop_path path here
        (fun same => fresh (same ▸ here)) trusted (self.hashes.size + 1)
        ((path_length_le path).trans (Nat.le_succ _))
      rw [selfVerifyLeaves, accepted]
      exact ih (fun info mem => known info (List.mem_cons_of_mem _ mem)) verifiedKeys' kept
  refine leaves _ ?_ {self.genesisKey} (by simp)
  intro info mem
  obtain ⟨node, read, rfl⟩ := List.mem_map.mp mem
  obtain ⟨hash, found, -⟩ := wf.grown.mem_read.mp read
  exact wf.known found

end WellFormed

/-! ## Runs of insertions and merges -/

/-- The DAGs that successful calls of `verify_and_insert` and `merge` build. What is merged is
built in the same way. -/
inductive Built : SectionsDAG K → Prop
  | new (genesisKey : K.PublicKey) : Built (new genesisKey)
  | insert {self dag : SectionsDAG K} {parentKey key : K.PublicKey} {signature : K.Signature} :
      Built self → self.verifyAndInsert parentKey key signature = .ok dag → Built dag
  | merge {self other dag : SectionsDAG K} :
      Built self → Built other → self.merge other = (.ok (), dag) → Built dag

theorem Built.reachable (built : self.Built) : self.Reachable := by
  induction built with
  | new genesisKey => exact .new genesisKey
  | insert _ inserted ih => exact ih.insert inserted
  | merge _ _ merged ih ih' =>
    have kept := ih.merge ih'
    rw [merged] at kept
    exact kept

/-- Inserting `key` under `parentKey` closes no circle: `key` is the genesis key, or it is
neither `parentKey` nor one of its ancestors. -/
def KeepsOrder (self : SectionsDAG K) (parentKey key : K.PublicKey) : Prop :=
  key = self.genesisKey ∨ ¬ self.AncestorOrSelf key parentKey

def KeepsOrderAll : SectionsDAG K → List (K.PublicKey × K.Node) → Prop
  | _, [] => True
  | self, entry :: rest =>
    self.KeepsOrder entry.1 entry.2.value.key ∧
      ∀ dag, self.insertNode entry.1 entry.2 = .ok dag → KeepsOrderAll dag rest

/-- No insertion that a merge of `lower` into `upper` makes closes a circle. -/
def MergeKeepsOrder (upper lower : SectionsDAG K) : Prop :=
  ∀ entries, lower.rootEntries = .ok entries → upper.KeepsOrderAll (lower.allVisits entries)

/-- The DAGs that such calls build when no insertion closes a circle. -/
inductive Ordered : SectionsDAG K → Prop
  | new (genesisKey : K.PublicKey) : Ordered (new genesisKey)
  | insert {self dag : SectionsDAG K} {parentKey key : K.PublicKey} {signature : K.Signature} :
      Ordered self → self.KeepsOrder parentKey key →
      self.verifyAndInsert parentKey key signature = .ok dag → Ordered dag
  | mergeBelow {self other dag : SectionsDAG K} :
      Ordered self → Built other → self.hasKey other.genesisKey = true →
      self.MergeKeepsOrder other → self.merge other = (.ok (), dag) → Ordered dag
  /-- A merge of a DAG that knows our genesis key: the two change places. -/
  | mergeAbove {self other dag : SectionsDAG K} :
      Ordered self → Ordered other → self.hasKey other.genesisKey = false →
      other.MergeKeepsOrder self → self.merge other = (.ok (), dag) → Ordered dag

def AncestorsEnd (self : SectionsDAG K) : Prop := Forest.Ends self.parentOf

section

variable (ends : self.AncestorsEnd) (wf : self.WellFormed)
include ends wf

theorem AncestorsEnd.attach
    (keeps : self.KeepsOrder parentKey key) (valid : K.verifySig parentKey key signature = true)
    (known : self.hasKey parentKey = true) : (self.attach parentKey key signature).AncestorsEnd := by
  intro start
  rw [wf.parentOf_attach valid known]
  split
  · exact ends start
  · rename_i proper
    exact exists_path_update ends (keeps.resolve_left proper) start

theorem AncestorsEnd.insertAll {entries : List (K.PublicKey × K.Node)} (keeps : self.KeepsOrderAll entries) :
    (self.insertAll entries).2.AncestorsEnd := by
  induction entries generalizing self with
  | nil => exact ends
  | cons entry rest ih =>
    cases inserted : self.insertNode entry.1 entry.2 with
    | error error => simpa [SectionsDAG.insertAll, inserted] using ends
    | ok dag =>
      rw [insertAll_cons_ok inserted]
      have later := keeps.2 dag inserted
      obtain ⟨valid, known, rfl⟩ := verifyAndInsert_eq_ok.mp inserted
      exact ih (ends.attach wf keeps.1 valid known) (wf.attach valid known) later

theorem AncestorsEnd.mergeInto
    (wf' : other.WellFormed) (keeps : self.MergeKeepsOrder other) : (self.mergeInto other).2.AncestorsEnd := by
  obtain ⟨entries, listed, -⟩ := wf'.rootEntries_ok
  rw [wf'.mergeInto_eq listed]
  exact ends.insertAll wf (keeps entries listed)

end

theorem Ordered.built (ordered : self.Ordered) : self.Built := by
  induction ordered with
  | new genesisKey => exact .new genesisKey
  | insert _ _ inserted ih => exact ih.insert inserted
  | mergeBelow _ built _ _ merged ih => exact ih.merge built merged
  | mergeAbove _ _ _ _ merged ih ih' => exact ih.merge ih' merged

theorem merge_ok_eq (merged : self.merge other = (.ok (), dag)) :
    dag = if self.hasKey other.genesisKey then (self.mergeInto other).2 else (other.mergeInto self).2 := by
  unfold merge at merged
  split at merged
  · cases merged
  · split at merged
    · rename_i below
      rw [if_pos below, merged]
    · rename_i below
      split at merged
      · rw [if_neg below, merged]
      · cases merged

theorem Ordered.ancestorsEnd (ordered : self.Ordered) : self.AncestorsEnd := by
  induction ordered with
  | new genesisKey =>
    intro key
    exact ⟨[], .stop (parentOf_unknown (by simp [SectionsDAG.new]))⟩
  | insert before keeps inserted ih =>
    obtain ⟨valid, known, rfl⟩ := verifyAndInsert_eq_ok.mp inserted
    exact ih.attach before.built.reachable.wellFormed keeps valid known
  | mergeBelow before built below keeps merged ih =>
    rw [merge_ok_eq merged, if_pos below]
    exact ih.mergeInto before.built.reachable.wellFormed built.reachable.wellFormed keeps
  | mergeAbove before before' above keeps merged _ ih' =>
    rw [merge_ok_eq merged, if_neg (by simp [above])]
    exact ih'.mergeInto before'.built.reachable.wellFormed before.built.reachable.wellFormed keeps

/-- In every run of insertions and merges in which no key is inserted under itself or one of its
descendants, `get_ancestors` of every known key returns: a duplicate-free list of keys, each the
parent of the one before, that ends in the genesis key. -/
theorem getAncestors_of_ordered (ordered : self.Ordered) (known : self.hasKey key = true) :
    ∃ ancestors, self.getAncestors key = .ok ancestors ∧ ancestors.Nodup ∧
      (key :: ancestors).IsChain (fun child parent => self.getParentKey child = .ok (some parent)) ∧
      (key :: ancestors).getLast (List.cons_ne_nil _ _) = self.genesisKey := by
  have wf := ordered.built.reachable.wellFormed
  obtain ⟨ancestors, path⟩ := ordered.ancestorsEnd key
  have inside := wf.hasKey_of_path known path
  refine ⟨ancestors, (wf.getAncestors_eq_ok known).mpr path, path.nodup.of_cons, ?_, ?_⟩
  · refine path.isChain.imp_of_mem_imp ?_
    intro child parent mem _ goes
    rw [wf.getParentKey_eq_parentOf (inside child mem), goes]
  · -- The last key is known and has no parent.
    by_contra proper
    have last := inside _ (List.getLast_mem (List.cons_ne_nil key ancestors))
    obtain ⟨parentKey, signature, entry, -⟩ :=
      wf.exists_entry proper ((hasKey_iff.mp last).resolve_left proper)
    have none := path.next_getLast
    rw [parentOf, entry] at none
    cases none

theorem keepsOrder_of_path (path : Path self.parentOf parentKey ancestors)
    (off : key ∉ parentKey :: ancestors) : self.KeepsOrder parentKey key :=
  Or.inr fun back => off (path.mem_of_reaches back)

/-- Three sections in a row, `0 → 1 → 2`. -/
def sampleChain : SectionsDAG sampleKeys :=
  ((new 0 : SectionsDAG sampleKeys).attach 0 1 (sampleSig 0 1)).attach 1 2 (sampleSig 1 2)

theorem sampleChain_ordered : sampleChain.Ordered := by
  have first : (new 0 : SectionsDAG sampleKeys).KeepsOrder 0 1 :=
    keepsOrder_of_path (.stop rfl) (by decide)
  have second : ((new 0 : SectionsDAG sampleKeys).attach 0 1 (sampleSig 0 1)).KeepsOrder 1 2 :=
    keepsOrder_of_path (.step rfl (.stop rfl)) (by decide)
  have genesis : (new 0 : SectionsDAG sampleKeys).Ordered := .new _
  have one : ((new 0 : SectionsDAG sampleKeys).attach 0 1 (sampleSig 0 1)).Ordered :=
    genesis.insert first (verifyAndInsert_eq_ok.mpr ⟨by rfl, by rfl, rfl⟩)
  exact one.insert second (verifyAndInsert_eq_ok.mpr ⟨by rfl, by rfl, rfl⟩)

theorem getAncestors_sampleChain : ∃ ancestors, sampleChain.getAncestors 2 = .ok ancestors ∧ ancestors.Nodup ∧
      (2 :: ancestors).IsChain (fun child parent => sampleChain.getParentKey child = .ok (some parent)) ∧
      (2 :: ancestors).getLast (List.cons_ne_nil _ _) = sampleChain.genesisKey :=
  getAncestors_of_ordered sampleChain_ordered rfl

theorem getAncestorsLoop_of_not_keepsOrder (wf : self.WellFormed)
    (inserted : self.verifyAndInsert parentKey key signature = .ok dag)
    (circle : ¬ self.KeepsOrder parentKey key) (bound : Nat) : dag.getAncestorsLoop bound key = .error .diverged := by
  obtain ⟨valid, known, rfl⟩ := verifyAndInsert_eq_ok.mp inserted
  obtain ⟨proper, back⟩ := not_or.mp circle
  have wf' := wf.attach valid known
  refine wf'.getAncestorsLoop_diverged (hasKey_attach.mpr (Or.inl rfl)) ?_ bound
  intro ancestors path
  rw [wf.parentOf_attach valid known, if_neg proper] at path
  exact not_path_update (not_not.mp back) ancestors path

def sampleCircle : SectionsDAG sampleKeys := sampleChain.attach 2 1 (sampleSig 2 1)

/-- Every signature of the circle verifies and every call that built it succeeded, and the loop
of `get_ancestors` runs past every bound. -/
theorem getAncestors_sampleCircle : sampleCircle.Built ∧ sampleCircle.hasKey 1 = true ∧
      ∀ bound, sampleCircle.getAncestorsLoop bound 1 = .error .diverged := by
  have built := sampleChain_ordered.built
  have inserted : sampleChain.verifyAndInsert 2 1 (sampleSig 2 1) = .ok sampleCircle :=
    verifyAndInsert_eq_ok.mpr ⟨by rfl, by rfl, rfl⟩
  have circle : ¬ sampleChain.KeepsOrder 2 1 := by
    rintro (genesis | apart)
    · exact absurd genesis (by decide)
    · exact apart (Relation.ReflTransGen.single (by rfl))
  exact ⟨built.insert inserted, by rfl,
    getAncestorsLoop_of_not_keepsOrder built.reachable.wellFormed inserted circle⟩

end SafeNetwork.SectionsDAG
