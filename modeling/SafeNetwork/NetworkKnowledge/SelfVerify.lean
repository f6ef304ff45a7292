import SafeNetwork.NetworkKnowledge.DagSubtree

/-!
# Self verification

`insert_trusted_key` verifies nothing. From new keys it builds a tree all the same, since the shape of a DAG
does not depend on what verifies: the facts about trees of signed keys hold of it in a scheme that accepts
every signature. `self_verify` goes up from each leaf to the first parent that it has passed, so that the
keys passed are closed under parents in the end.
-/

namespace SafeNetwork

open Std Walk Forest

/-- The scheme with the same keys and nodes that accepts every signature. -/
abbrev KeyScheme.trusting (K : KeyScheme) : KeyScheme :=
  { K with verify := fun _ _ _ => true, serializeKey := fun _ => some [] }

namespace SectionsDAG

variable {K : KeyScheme} {self : SectionsDAG K} {parentKey key : K.PublicKey} {signature : K.Signature}
  {log : List (K.PublicKey × SectionInfo K.PublicKey K.Signature)} {verifiedKeys : ExtTreeSet K.PublicKey}

def trusting (self : SectionsDAG K) : SectionsDAG K.trusting :=
  ⟨self.genesisKey, self.dag, self.dagRoot, self.hashes⟩

theorem parentHashes_trusting : self.trusting.parentHashes parentKey = self.parentHashes parentKey := by
  simp only [parentHashes, trusting]
  cases self.hashes[parentKey]? <;> rfl

theorem attach_trusting :
    (self.attach parentKey key signature).trusting = self.trusting.attach parentKey key signature := by
  rw [attach, attach, childNode, childNode, parentHashes_trusting]
  rfl

theorem getHash_trusting : self.trusting.getHash key = self.getHash key := by
  simp only [getHash, trusting]
  cases self.hashes[key]? <;> rfl

theorem getNode_trusting : self.trusting.getNode key = self.getNode key := by
  rw [getNode, getNode, getHash_trusting]
  cases self.getHash key with
  | error error => rfl
  | ok hash =>
    simp only [bind, Except.bind, trusting]
    cases K.merkle.node self.dag hash <;> rfl

theorem getParentKey_trusting : self.trusting.getParentKey key = self.getParentKey key := by
  simp only [getParentKey, getHash_trusting]
  cases self.getHash key with
  | error error => rfl
  | ok hash =>
    simp only [bind, Except.bind, parentNode, trusting]
    cases (K.merkle.children self.dag hash).head? <;> rfl

theorem entryOf_trusting : self.trusting.entryOf = self.entryOf := by
  funext key
  simp only [entryOf, getParentKey_trusting, getNode_trusting]
  rcases self.getParentKey key with _ | _ | _ <;> rcases self.getNode key with _ | _ <;> rfl

theorem parentOf_trusting : self.trusting.parentOf = self.parentOf := by
  funext key
  exact congrArg (Option.map Prod.fst) (congrFun entryOf_trusting key)

/-- A DAG that `insert_trusted_key` builds from new keys, with the parent and the signature of each. -/
inductive Inserted : List (K.PublicKey × SectionInfo K.PublicKey K.Signature) → SectionsDAG K → Prop
  | new (genesisKey : K.PublicKey) : Inserted [] (new genesisKey)
  | insert {log : List (K.PublicKey × SectionInfo K.PublicKey K.Signature)} {self dag : SectionsDAG K}
      {parentKey : K.PublicKey} {info : SectionInfo K.PublicKey K.Signature} : Inserted log self →
      self.hasKey info.key = false → self.insertTrustedKey parentKey info.key info.sig = .ok dag →
      Inserted ((parentKey, info) :: log) dag

namespace Inserted

theorem tidy (inserted : Inserted log self) : self.trusting.Tidy := by
  induction inserted with
  | new genesisKey => exact tidy_new _
  | @insert log self _ parentKey info _ fresh done ih =>
    obtain ⟨known, rfl⟩ := insertTrustedKey_eq_ok.mp done
    have valid : K.trusting.verifySig parentKey info.key info.sig = true := rfl
    exact attach_trusting ▸ ih.attach_new valid known fresh

theorem entryOf (inserted : Inserted log self) {entry : K.PublicKey × SectionInfo K.PublicKey K.Signature}
    (mem : entry ∈ log) : self.entryOf entry.2.key = some (entry.1, entry.2.sig) := by
  induction inserted with
  | new => cases mem
  | @insert log self _ parentKey info before fresh done ih =>
    obtain ⟨known, rfl⟩ := insertTrustedKey_eq_ok.mp done
    have proper : info.key ≠ self.genesisKey := by
      intro same
      simp [hasKey, same] at fresh
    have valid : K.trusting.verifySig parentKey info.key info.sig = true := rfl
    have entries : (self.attach parentKey info.key info.sig).entryOf =
        Function.update self.entryOf info.key (some (parentKey, info.sig)) := by
      have added := (before.tidy.entryOf_attach valid known).trans (if_neg proper)
      rwa [← attach_trusting, entryOf_trusting, entryOf_trusting] at added
    rcases List.mem_cons.mp mem with rfl | old
    · rw [entries, Function.update_self]
    · have older := ih old
      have other : entry.2.key ≠ info.key := by
        intro same
        have seen := before.tidy.hasKey_iff_entryOf.mpr (.inr (by rw [entryOf_trusting, older]; rfl))
        rw [← same] at fresh
        exact absurd (fresh.symm.trans seen) Bool.false_ne_true
      rw [entries, Function.update_of_ne other, older]

theorem distinct (inserted : Inserted log self)
    (signed : ∀ entry ∈ log, K.verifySig entry.1 entry.2.key entry.2.sig = true) : self.Distinct := by
  induction inserted with
  | new genesisKey => exact .new genesisKey
  | @insert log self dag parentKey info _ fresh done ih =>
    have verified : self.verifyAndInsert parentKey info.key info.sig = .ok dag := by
      rw [verifyAndInsert, if_pos (signed _ List.mem_cons_self), done]
    exact (ih fun entry mem => signed entry (List.mem_cons_of_mem _ mem)).insert fresh verified

end Inserted

/-! ## The two loops -/

/-- The keys of a set but the genesis key are signed, each by a parent with a property. -/
def SignedBy (self : SectionsDAG K) (verifiedKeys : ExtTreeSet K.PublicKey) (upper : K.PublicKey → Prop) : Prop :=
  ∀ key ∈ verifiedKeys, key = self.genesisKey ∨ ∃ parent sig, self.entryOf key = some (parent, sig) ∧
    K.verifySig parent key sig = true ∧ upper parent

theorem SignedBy.mono {upper upper' : K.PublicKey → Prop} (signed : self.SignedBy verifiedKeys upper)
    (weaker : ∀ parent, upper parent → upper' parent) : self.SignedBy verifiedKeys upper' := by
  intro key mem
  rcases signed key mem with isGenesis | ⟨parent, sig, entry, valid, inside⟩
  · exact .inl isGenesis
  · exact .inr ⟨parent, sig, entry, valid, weaker parent inside⟩

theorem signedBy_of_selfVerifyLoop {bound : Nat} {verifiedKeys' : ExtTreeSet K.PublicKey}
    (accepted : self.selfVerifyLoop bound verifiedKeys key = (true, verifiedKeys'))
    (signed : self.SignedBy verifiedKeys fun parent => parent ∈ verifiedKeys ∨ parent = key) :
    self.SignedBy verifiedKeys' (· ∈ verifiedKeys') ∧ key ∈ verifiedKeys' ∧
      ∀ other ∈ verifiedKeys, other ∈ verifiedKeys' := by
  induction bound generalizing verifiedKeys key with
  | zero => simp [selfVerifyLoop] at accepted
  | succ bound ih =>
    rw [selfVerifyLoop] at accepted
    split at accepted
    · rename_i parent node isParent isNode
      have entry : self.entryOf key = some (parent, node.value.sig) := by simp [entryOf, isParent, isNode]
      have grown : ∀ other, other ∈ verifiedKeys.insert key ↔ other = key ∨ other ∈ verifiedKeys := by
        intro other
        rw [ExtTreeSet.mem_insert, Std.compare_eq_iff_eq, eq_comm]
      split at accepted
      · rename_i valid
        have next : self.SignedBy (verifiedKeys.insert key)
            fun above => above ∈ verifiedKeys.insert key ∨ above = parent := by
          intro other mem
          rcases (grown other).mp mem with rfl | old
          · exact .inr ⟨parent, _, entry, valid, .inr rfl⟩
          · exact signed.mono (fun above inside => .inl ((grown above).mpr inside.symm)) other old
        dsimp only at accepted
        split at accepted
        · rename_i passed
          obtain rfl := (Prod.mk.inj accepted).2
          refine ⟨next.mono fun above inside => inside.elim id ?_, (grown key).mpr (.inl rfl),
            fun other old => (grown other).mpr (.inr old)⟩
          rintro rfl
          exact ExtTreeSet.contains_iff_mem.mp passed
        · obtain ⟨closed, -, kept⟩ := ih accepted next
          exact ⟨closed, kept _ ((grown _).mpr (.inl rfl)), fun other old => kept _ ((grown _).mpr (.inr old))⟩
      · cases accepted
    · cases accepted

theorem signedBy_of_selfVerifyLeaves {sections : List (SectionInfo K.PublicKey K.Signature)}
    (accepted : self.selfVerifyLeaves verifiedKeys sections = true)
    (signed : self.SignedBy verifiedKeys (· ∈ verifiedKeys)) :
    ∃ passed, self.SignedBy passed (· ∈ passed) ∧ (∀ key ∈ verifiedKeys, key ∈ passed) ∧
      ∀ info ∈ sections, info.key ∈ passed := by
  induction sections generalizing verifiedKeys with
  | nil => exact ⟨verifiedKeys, signed, fun _ => id, by simp⟩
  | cons leaf rest ih =>
    rw [selfVerifyLeaves] at accepted
    split at accepted
    · rename_i next walked
      obtain ⟨closed, here, kept⟩ := signedBy_of_selfVerifyLoop walked (signed.mono fun _ => .inl)
      obtain ⟨passed, last, later, listed⟩ := ih accepted closed
      exact ⟨passed, last, fun key mem => later key (kept key mem),
        List.forall_mem_cons.mpr ⟨later _ here, listed⟩⟩
    · cases accepted

theorem SignedBy.mem_of_above (signed : self.SignedBy verifiedKeys (· ∈ verifiedKeys))
    (above : Above self.parentOf parentKey key) (mem : key ∈ verifiedKeys) : parentKey ∈ verifiedKeys := by
  induction above with
  | refl => exact mem
  | tail _ goes ih =>
    obtain rfl | ⟨parent, sig, entry, -, inside⟩ := signed _ ih
    · simp at goes
    · rw [parentOf, entry] at goes
      exact Option.some.inj goes ▸ inside

/-! ## The result -/

/-- The inner loop of `SectionsDAG::self_verify`, absent when more keys than `bound` are passed. -/
def selfVerifyWithin (self : SectionsDAG K) :
    Nat → ExtTreeSet K.PublicKey → K.PublicKey → Option (Bool × ExtTreeSet K.PublicKey)
  | 0, _, _ => none
  | bound + 1, verifiedKeys, key =>
    match self.getParentKey key, self.getNode key with
    | .ok (some parent), .ok node =>
      if K.verifySig parent key node.value.sig then
        let verifiedKeys := verifiedKeys.insert key
        if verifiedKeys.contains parent then some (true, verifiedKeys)
        else self.selfVerifyWithin bound verifiedKeys parent
      else some (false, verifiedKeys)
    | _, _ => some (false, verifiedKeys)

theorem selfVerifyWithin_succ {bound : Nat} (rest : ∀ parent verifiedKeys, self.parentOf key = some parent →
      self.selfVerifyWithin bound verifiedKeys parent = some (self.selfVerifyLoop bound verifiedKeys parent)) :
    self.selfVerifyWithin (bound + 1) verifiedKeys key = some (self.selfVerifyLoop (bound + 1) verifiedKeys key) := by
  simp only [selfVerifyWithin, selfVerifyLoop]
  rcases isParent : self.getParentKey key with _ | _ | parent
  · rfl
  · rfl
  rcases isNode : self.getNode key with _ | node
  · rfl
  have goes : self.parentOf key = some parent := by simp [parentOf, entryOf, isParent, isNode]
  simp only [rest parent _ goes]
  split_ifs <;> rfl

theorem selfVerifyWithin_path {ancestors : List K.PublicKey} (path : Path self.parentOf key ancestors)
    {bound : Nat} (enough : ancestors.length ≤ bound) : self.selfVerifyWithin (bound + 1) verifiedKeys key =
      some (self.selfVerifyLoop (bound + 1) verifiedKeys key) := by
  induction path generalizing bound verifiedKeys with
  | stop ends => exact selfVerifyWithin_succ fun parent _ goes => absurd (ends.symm.trans goes) (by simp)
  | step goes _ ih =>
    obtain ⟨bound, rfl⟩ := Nat.exists_eq_succ_of_ne_zero (Nat.ne_zero_of_lt enough)
    refine selfVerifyWithin_succ fun parent _ goes' => ?_
    obtain rfl := Option.some.inj (goes.symm.trans goes')
    exact ih (Nat.le_of_succ_le_succ enough)

/-- The loops of `self_verify` return on every DAG that `insert_trusted_key` builds from new keys, and it
accepts exactly when the signature of each key verifies under the parent it was inserted under. -/
theorem selfVerify_of_inserted (inserted : Inserted log self) :
    (∀ verifiedKeys key, self.selfVerifyWithin (self.hashes.size + 1) verifiedKeys key =
      some (self.selfVerifyLoop (self.hashes.size + 1) verifiedKeys key)) ∧
    (self.selfVerify = true ↔ ∀ entry ∈ log, K.verifySig entry.1 entry.2.key entry.2.sig = true) := by
  have tidy := inserted.tidy
  refine ⟨fun verifiedKeys key => ?_, fun accepted entry mem => ?_, fun signed => ?_⟩
  · obtain ⟨ancestors, path⟩ := tidy.ends key
    rw [parentOf_trusting] at path
    exact selfVerifyWithin_path path (WellFormed.path_length_le path)
  · have start : self.SignedBy {self.genesisKey} (· ∈ ({self.genesisKey} : ExtTreeSet K.PublicKey)) :=
      fun key only => .inl (mem_singleton.mp only)
    obtain ⟨passed, signed, -, leaves⟩ := signedBy_of_selfVerifyLeaves accepted start
    have found := inserted.entryOf mem
    have proper : entry.2.key ≠ self.genesisKey := by
      intro same
      simp [same] at found
    -- A leaf below the key has been passed, and so has the key.
    obtain ⟨leaf, isLeaf, below⟩ := exists_leaf tidy.ends (keySet_finite self.trusting)
      (tidy.hasKey_iff_entryOf.mpr (.inr (by rw [entryOf_trusting, found]; rfl)))
    rw [parentOf_trusting] at below
    have inner : leaf ≠ self.genesisKey := by
      rintro rfl
      obtain ⟨above, goes, -⟩ := below.parent_of_ne proper
      simp at goes
    obtain ⟨info, listed, rfl⟩ := tidy.mem_nonGenesisLeafSections.mpr ⟨inner, isLeaf⟩
    obtain same | ⟨parent, sig, entry', verified, -⟩ :=
      signed _ (signed.mem_of_above below (leaves info listed))
    · exact absurd same proper
    · obtain ⟨rfl, rfl⟩ := Prod.mk.inj (Option.some.inj (found.symm.trans entry'))
      exact verified
  · have whole := (inserted.distinct signed).tidy
    exact whole.selfVerify_of_ends whole.ends whole.genesis_fresh

/-- The key `1` under `0` with a signature of `5`: the DAG is built and is found out. -/
theorem selfVerify_sampleForged : ∃ dag : SectionsDAG sampleKeys,
    (new 0 : SectionsDAG sampleKeys).insertTrustedKey 0 1 (sampleSig 5 1) = .ok dag ∧ dag.selfVerify = false := by
  have start : Inserted [] (new 0 : SectionsDAG sampleKeys) := .new _
  have inserted : (new 0 : SectionsDAG sampleKeys).insertTrustedKey 0 1 (sampleSig 5 1) = .ok _ := rfl
  have built : Inserted (K := sampleKeys) [(0, ⟨1, sampleSig 5 1⟩)] _ := start.insert rfl inserted
  refine ⟨_, inserted, Bool.eq_false_iff.mpr fun accepted => ?_⟩
  exact absurd ((selfVerify_of_inserted built).2.mp accepted _ List.mem_cons_self) (by decide)

end SectionsDAG

end SafeNetwork
