import SafeNetwork.NetworkKnowledge.DagMerge
import SafeNetwork.NetworkKnowledge.SectionTree

/-!
# What updates from anybody can do to a section tree

The updates here are arbitrary: any SAP, and any proof chain that verifies itself. For an unknown
prefix, `update_the_section_tree` asks that the genesis key of the chain is known; for a known
prefix it only asks that the chain contains the key of the SAP it holds. So a chain from an unknown
key gets through when it runs through that key. If it also contains our genesis key, `merge` swaps
the two DAGs and our genesis key is replaced; if it does not, `merge` fails after the map of SAPs
has been changed. The theorems say that these are the only ways to either result.
-/

namespace SafeNetwork

open Std

variable {S : SectionScheme}

/-- The chain is one that can be built, and it passes `self_verify`. -/
structure SectionTreeUpdate.ChainVerifies (update : SectionTreeUpdate S) : Prop where
  reachable : update.proofChain.Reachable
  verified : update.proofChain.selfVerify = true

namespace SectionTree

variable {self tree : SectionTree S} {update : SectionTreeUpdate S}
  {updates : List (SectionTreeUpdate S)} {genesisSap : S.SignedSap}

theorem reachable_step (reachable : self.sectionsDag.Reachable) (chain : update.ChainVerifies) :
    (self.updateTheSectionTree update).2.sectionsDag.Reachable := by
  by_cases accepts : self.Accepts update
  · rw [update_accepted accepts]
    exact reachable.merge chain.reachable
  · obtain ⟨result, unchanged, -⟩ := update_refused accepts
    rw [unchanged]
    exact reachable

theorem reachable_run (reachable : self.sectionsDag.Reachable) (chains : ∀ update ∈ updates, update.ChainVerifies) :
    (self.run updates).sectionsDag.Reachable := by
  induction updates generalizing self with
  | nil => exact reachable
  | cons update rest ih =>
    exact ih (reachable_step reachable (chains update List.mem_cons_self)) fun later mem =>
      chains later (List.mem_cons_of_mem _ mem)

theorem reachable_new (built : new genesisSap = .ok tree) : tree.sectionsDag.Reachable := by
  obtain ⟨-, rfl⟩ := new_eq_ok.mp built
  exact .new _

theorem run_append_one : self.run (updates ++ [update]) = ((self.run updates).updateTheSectionTree update).2 := by
  simp [run]

/-! ## The genesis key -/

/-- An accepted update whose chain contains our genesis key below an unknown one. -/
def Displaces (self : SectionTree S) (update : SectionTreeUpdate S) : Prop :=
  self.Accepts update ∧ self.sectionsDag.hasKey update.proofChain.genesisKey = false ∧
    update.proofChain.hasKey self.genesisKey = true

theorem genesisKey_step (reachable : self.sectionsDag.Reachable) (chain : update.ChainVerifies) :
    (self.updateTheSectionTree update).2.genesisKey = self.genesisKey ↔ ¬ self.Displaces update := by
  by_cases accepts : self.Accepts update
  · have genesis := reachable.wellFormed.merge_genesisKey chain.reachable.wellFormed chain.verified
    simp only [update_accepted accepts, genesisKey, Displaces, accepts, true_and, genesis]
    split
    · rename_i swapped
      have differs : update.proofChain.genesisKey ≠ self.sectionsDag.genesisKey := by
        intro same
        have known : self.sectionsDag.hasKey update.proofChain.genesisKey = true :=
          SectionsDAG.hasKey_iff.mpr (Or.inl same)
        rw [swapped.1] at known
        cases known
      simp [differs, swapped]
    · rename_i kept
      simpa using kept
  · obtain ⟨result, unchanged, -⟩ := update_refused accepts
    simp [unchanged, Displaces, accepts]

/-- Over any run of arbitrary updates, the genesis key stays the genesis SAP's and every key of the
DAG is linked to it by signatures, in every state reached, exactly when no update displaces the
genesis key. -/
theorem genesisKey_run_iff (genesisSap : S.SignedSap) (built : new genesisSap = .ok tree)
    (chains : ∀ update ∈ updates, update.ChainVerifies) : (∀ done, done <+: updates →
      (tree.run done).genesisKey = genesisSap.sectionKey ∧
        ∀ key ∈ (tree.run done).sectionsDag.keys, S.Linked genesisSap.sectionKey key) ↔
    ∀ done update, done ++ [update] <+: updates → ¬ (tree.run done).Displaces update := by
  have genesis : tree.genesisKey = genesisSap.sectionKey := by
    obtain ⟨-, rfl⟩ := new_eq_ok.mp built
    rfl
  have reachable : ∀ done, done <+: updates → (tree.run done).sectionsDag.Reachable :=
    fun done before => reachable_run (reachable_new built) fun update mem =>
      chains update (before.subset mem)
  have chain : ∀ {done update}, done ++ [update] <+: updates → update.ChainVerifies :=
    fun before => chains _ (before.subset (by simp))
  have shorter : ∀ {done update}, done ++ [update] <+: updates → done <+: updates :=
    fun before => (List.prefix_append _ _).trans before
  constructor
  · intro kept done update before
    rw [← genesisKey_step (reachable done (shorter before)) (chain before), ← run_append_one,
      (kept _ before).1, (kept _ (shorter before)).1]
  · intro never done before
    have same : (tree.run done).genesisKey = genesisSap.sectionKey := by
      induction done using List.reverseRecOn with
      | nil => exact genesis
      | append_singleton done update ih =>
        rw [run_append_one, (genesisKey_step (reachable done (shorter before)) (chain before)).mpr
          (never done update before), ih (shorter before)]
    refine ⟨same, fun key listed => ?_⟩
    have wf := (reachable done before).wellFormed
    rw [← same]
    exact wf.linked (wf.mem_keys.mp listed)

/-- The genesis section's churn, proved by a chain that starts at a key `5` of anybody's choice:
`5` signs the genesis key, which has signed key `1`. -/
def sampleDisplacing : SectionTreeUpdate sampleScheme where
  signedSap := sampleSap 1 []
  proofChain :=
    ((SectionsDAG.new 5 : SectionsDAG sampleKeys).attach 5 0 (sampleSig 5 0)).attach 0 1 (sampleSig 0 1)

theorem sampleChurn_chainVerifies : sampleChurn.ChainVerifies := by
  have genesis : (SectionsDAG.new 0 : SectionsDAG sampleKeys).Reachable := .new _
  exact ⟨genesis.insert (SectionsDAG.verifyAndInsert_eq_ok.mpr ⟨by rfl, by rfl, rfl⟩), rfl⟩

theorem reachable_sampleRow (first second third : Nat) :
    (((SectionsDAG.new first : SectionsDAG sampleKeys).attach first second
      (sampleSig first second)).attach second third (sampleSig second third)).Reachable := by
  have signed : ∀ signer key : Nat, sampleKeys.verifySig signer key (sampleSig signer key) = true := by
    intro signer key
    simp [KeyScheme.verifySig, sampleSig]
  have start : (SectionsDAG.new first : SectionsDAG sampleKeys).Reachable := .new _
  have one := start.insert (SectionsDAG.verifyAndInsert_eq_ok.mpr
    ⟨signed first second, SectionsDAG.hasKey_iff.mpr (Or.inl rfl), rfl⟩)
  exact one.insert (SectionsDAG.verifyAndInsert_eq_ok.mpr
    ⟨signed second third, SectionsDAG.hasKey_attach.mpr (Or.inl rfl), rfl⟩)

theorem sampleDisplacing_chainVerifies : sampleDisplacing.ChainVerifies :=
  ⟨reachable_sampleRow 5 0 1, rfl⟩

theorem genesisKey_run_sampleChurn : (sampleGenesis.updateTheSectionTree sampleChurn).1 = .ok true ∧
    (sampleGenesis.run [sampleChurn]).genesisKey = (0 : Nat) ∧
    ∀ key ∈ (sampleGenesis.run [sampleChurn]).sectionsDag.keys, sampleScheme.Linked (0 : Nat) key := by
  have chains : ∀ update ∈ [sampleChurn], update.ChainVerifies := by
    simpa using sampleChurn_chainVerifies
  have never : ∀ done update, done ++ [update] <+: [sampleChurn] →
      ¬ (sampleGenesis.run done).Displaces update := by
    intro done update before displaces
    have short := before.length_le
    obtain rfl : done = [] := by simpa using short
    obtain rfl : update = sampleChurn := by simpa using before
    exact absurd displaces.2.1 (by decide)
  exact ⟨rfl, (genesisKey_run_iff (sampleSap 0 []) rfl chains).mpr never _ (List.prefix_refl _)⟩

/-- With the foreign chain, the same churn is accepted and replaces the genesis key. -/
theorem genesisKey_run_sampleDisplacing : new (sampleSap 0 []) = .ok sampleGenesis ∧ sampleDisplacing.ChainVerifies ∧
    (sampleGenesis.updateTheSectionTree sampleDisplacing).1 = .ok true ∧
    (sampleGenesis.run [sampleDisplacing]).genesisKey ≠ (sampleSap 0 []).sectionKey :=
  ⟨rfl, sampleDisplacing_chainVerifies, rfl, by decide⟩

/-! ## Failed updates -/

/-- A call that does not return `Ok(true)` leaves the tree as it was. -/
def Atomic (self : SectionTree S) (update : SectionTreeUpdate S) : Prop :=
  (self.updateTheSectionTree update).1 ≠ .ok true → (self.updateTheSectionTree update).2 = self

def Mergeable (self : SectionTree S) (update : SectionTreeUpdate S) : Prop :=
  self.Accepts update → self.sectionsDag.MergesWith update.proofChain

/-- An update of any tree that updates reach is atomic when its chain fits, if it gets as far as
the merge; and only then, unless the tree holds the very SAP already. -/
theorem atomic_iff_mergeable (genesisSap : S.SignedSap) (built : new genesisSap = .ok tree)
    (chains : ∀ update ∈ updates, update.ChainVerifies) (chain : update.ChainVerifies) :
    ((tree.run updates).Mergeable update → (tree.run updates).Atomic update) ∧
    ((tree.run updates).getSigned update.signedSap.sapPrefix ≠ some update.signedSap →
      (tree.run updates).Atomic update → (tree.run updates).Mergeable update) := by
  have wf := (reachable_run (reachable_new built) chains).wellFormed
  have merges := wf.merge_ok_iff chain.reachable.wellFormed chain.verified
  by_cases accepts : (tree.run updates).Accepts update
  · have updated := update_accepted accepts
    constructor
    · intro fits failed
      rw [updated, merges.mpr (fits accepts)] at failed
      exact absurd rfl failed
    · intro other atomic _
      rw [← merges]
      by_contra failed
      -- A failed merge leaves the new SAP in the map.
      have unchanged := atomic fun done => by
        rw [updated] at done
        cases result : ((tree.run updates).sectionsDag.merge update.proofChain).1 with
        | ok _ => exact failed result
        | error error => simp [result, Except.map] at done
      rw [updated] at unchanged
      have same := congrArg (fun tree => tree.getSigned update.signedSap.sapPrefix) unchanged
      simp only [getSigned, getElem?_placed, ↓reduceIte] at same
      exact other same.symm
  · obtain ⟨result, unchanged, -⟩ := update_refused accepts
    exact ⟨fun _ _ => by rw [unchanged], fun _ _ accepted => absurd accepted accepts⟩

/-- After the churn to key `1`, a SAP of key `2` with a chain from a key `5` of anybody's choice:
`5` signs key `1`, which has signed key `2`. -/
def sampleForeign : SectionTreeUpdate sampleScheme where
  signedSap := sampleSap 2 []
  proofChain :=
    ((SectionsDAG.new 5 : SectionsDAG sampleKeys).attach 5 1 (sampleSig 5 1)).attach 1 2 (sampleSig 1 2)

theorem sampleForeign_chainVerifies : sampleForeign.ChainVerifies :=
  ⟨reachable_sampleRow 5 1 2, rfl⟩

theorem atomic_sampleChurn : (sampleGenesis.run []).Atomic sampleChurn := by
  refine (atomic_iff_mergeable (sampleSap 0 []) rfl (by simp) sampleChurn_chainVerifies).1 ?_
  intro _
  have signed : sampleChurn.proofChain.RootsSigned := by
    intro key root node found
    obtain rfl : 1 = key := by simpa [sampleChurn, SectionsDAG.attach, SectionsDAG.new] using root
    obtain rfl := Except.ok.inj found
    rfl
  exact signed

/-- The update with the foreign chain fails and leaves its SAP in the map. -/
theorem not_atomic_sampleForeign : new (sampleSap 0 []) = .ok sampleGenesis ∧ sampleChurn.ChainVerifies ∧
    sampleForeign.ChainVerifies ∧
    ((sampleGenesis.run [sampleChurn]).updateTheSectionTree sampleForeign).1 = .error (.keyNotFound (0 : Nat)) ∧
    ((sampleGenesis.run [sampleChurn]).updateTheSectionTree sampleForeign).2.sections ≠
      (sampleGenesis.run [sampleChurn]).sections := by
  refine ⟨rfl, sampleChurn_chainVerifies, sampleForeign_chainVerifies, rfl, fun same => ?_⟩
  have keys := congrArg (fun sections => (sections[(⟨[]⟩ : Prefix)]?).map SectionSigned.sectionKey) same
  exact absurd keys (by decide)

end SectionTree

end SafeNetwork
