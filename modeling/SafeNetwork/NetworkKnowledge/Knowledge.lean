import SafeNetwork.NetworkKnowledge.History
import SafeNetwork.NetworkKnowledge.SectionMemberHistory

/-!
# Network knowledge

`network_knowledge/mod.rs`: what a node knows of the network, with the SAP of its own section kept
beside the section tree. An update for a prefix that matches the node's name replaces both. An
update for another prefix changes the tree alone, and may then remove our own prefix from it: when
our section splits and the other half is learnt first.
-/

namespace SafeNetwork

open Std Forest

structure NetworkKnowledge (S : SectionScheme) where
  signedSap : S.SignedSap
  sectionMembers : SectionMemberHistory S
  sectionTree : SectionTree S

namespace NetworkKnowledge

variable {S : SectionScheme}

/-- `NetworkKnowledge::new` — our SAP is the one of the prefix in the tree. -/
def new (sapPrefix : Prefix) (sectionTree : SectionTree S) : S.Result (NetworkKnowledge S) :=
  match sectionTree.getSigned sapPrefix with
  | some signedSap =>
    let sectionMembers : SectionMemberHistory S := {}
    .ok ⟨signedSap, sectionMembers.resetInitialMembers signedSap.value.members, sectionTree⟩
  | none => .error .noMatchingSection

def genesisKey (self : NetworkKnowledge S) : S.PublicKey := self.sectionTree.genesisKey

/-- `NetworkKnowledge::prefix` — prefix of our section. -/
def ourPrefix (self : NetworkKnowledge S) : Prefix := self.signedSap.sapPrefix

/-- `NetworkKnowledge::section_key` — key of our section. -/
def sectionKey (self : NetworkKnowledge S) : S.PublicKey := self.signedSap.sectionKey

/-- `NetworkKnowledge::update_sap_knowledge_if_valid` — the result of the call and the knowledge
after it. -/
def updateSapKnowledgeIfValid (self : NetworkKnowledge S) (update : SectionTreeUpdate S)
    (ourName : XorName) : S.Result Bool × NetworkKnowledge S :=
  let signedSap := update.signedSap
  let sapPrefix := signedSap.sapPrefix
  match self.sectionTree.updateTheSectionTree update with
  | (.error error, tree) => (.error error, { self with sectionTree := tree })
  | (.ok false, tree) => (.ok false, { self with sectionTree := tree })
  | (.ok true, tree) =>
    if sapPrefix.matchesName ourName then
      let members := (self.sectionMembers.resetInitialMembers signedSap.value.members).retain sapPrefix
      let self := { self with sectionMembers := members, sectionTree := tree }
      match tree.sectionsDag.partialDag self.genesisKey signedSap.sectionKey with
      | .error error => (.error error, self)
      | .ok proofChain =>
        match members.pruneMembersArchive proofChain signedSap.sectionKey with
        | .error error => (.error error, self)
        | .ok members => (.ok true, { self with sectionMembers := members, signedSap := signedSap })
    else (.ok true, { self with sectionTree := tree })

def run (self : NetworkKnowledge S) (ourName : XorName) (updates : List (SectionTreeUpdate S)) :
    NetworkKnowledge S :=
  updates.foldl (fun knowledge update => (knowledge.updateSapKnowledgeIfValid update ourName).2) self

/-- `NetworkKnowledge::closest_signed_sap` — the fallback to our own prefix is looked up before
it is known whether it is needed. -/
def closestSignedSap (self : NetworkKnowledge S) (name : XorName) : Option S.SignedSap := do
  let fallback ← self.sectionTree.getSigned self.ourPrefix
  return (self.sectionTree.closest name (some self.ourPrefix)).getD fallback

def closestSignedSapWithChain (self : NetworkKnowledge S) (name : XorName) :
    Option (S.SignedSap × SectionsDAG S.toKeyScheme) := do
  let closestSap ← self.closestSignedSap name
  match self.sectionTree.sectionsDag.partialDag self.genesisKey closestSap.sectionKey with
  | .ok sectionChain => some (closestSap, sectionChain)
  | .error _ => none

def getProofChainToCurrentSection (self : NetworkKnowledge S) (fromKey : S.PublicKey) :
    S.Result (SectionsDAG S.toKeyScheme) :=
  self.sectionTree.sectionsDag.partialDag fromKey self.signedSap.sectionKey

/-- `NetworkKnowledge::section_chain` — the chain from the genesis key to our section key. -/
def sectionChain (self : NetworkKnowledge S) : SectionsDAG S.toKeyScheme :=
  match self.getProofChainToCurrentSection self.genesisKey with
  | .ok chain => chain
  | .error _ => .new self.genesisKey

end NetworkKnowledge

/-! ## One update -/

section

variable {S : SectionScheme} {self knowledge : NetworkKnowledge S} {sapPrefix : Prefix}
  {tree tree' : SectionTree S} {update : SectionTreeUpdate S} {ourName : XorName}

namespace NetworkKnowledge

theorem new_eq_ok (created : new sapPrefix tree = .ok knowledge) :
    knowledge.sectionTree = tree ∧ tree.getSigned sapPrefix = some knowledge.signedSap := by
  unfold new at created
  split at created
  · rename_i signedSap found
    obtain rfl := Except.ok.inj created
    exact ⟨rfl, found⟩
  · cases created

theorem update_sectionTree (self : NetworkKnowledge S) (update : SectionTreeUpdate S) (ourName : XorName) :
    (self.updateSapKnowledgeIfValid update ourName).2.sectionTree =
      (self.sectionTree.updateTheSectionTree update).2 := by
  simp only [updateSapKnowledgeIfValid]
  rcases self.sectionTree.updateTheSectionTree update with ⟨_ | _ | _, tree⟩
  · rfl
  · rfl
  · dsimp only
    repeat' split
    all_goals rfl

theorem update_signedSap_refused {result : S.Result Bool}
    (refused : self.sectionTree.updateTheSectionTree update = (result, tree)) (differs : result ≠ .ok true) :
    (self.updateSapKnowledgeIfValid update ourName).2.signedSap = self.signedSap := by
  simp only [updateSapKnowledgeIfValid, refused]
  rcases result with _ | _ | _
  · rfl
  · rfl
  · exact absurd rfl differs

theorem update_signedSap_other (apart : update.signedSap.sapPrefix.matchesName ourName = false) :
    (self.updateSapKnowledgeIfValid update ourName).2.signedSap = self.signedSap := by
  simp only [updateSapKnowledgeIfValid, apart]
  rcases self.sectionTree.updateTheSectionTree update with ⟨_ | _ | _, tree⟩ <;> rfl

theorem closestSignedSapWithChain_eq_some {name : XorName} {sap : S.SignedSap} {chain : SectionsDAG S.toKeyScheme}
    (found : self.closestSignedSapWithChain name = some (sap, chain)) :
    (∃ known, self.sectionTree.getSigned known = some sap) ∧
      self.sectionTree.sectionsDag.partialDag self.genesisKey sap.sectionKey = .ok chain := by
  obtain ⟨closest, chosen, found⟩ := Option.bind_eq_some_iff.mp found
  split at found
  · rename_i returned
    obtain ⟨rfl, rfl⟩ := Prod.mk.inj (Option.some.inj found)
    refine ⟨?_, returned⟩
    obtain ⟨own, held, same⟩ := Option.bind_eq_some_iff.mp chosen
    cases other : self.sectionTree.closest name (some self.ourPrefix) with
    | some sap =>
      obtain rfl : sap = closest := by simpa [other] using same
      exact SectionTree.mem_of_closest other
    | none =>
      obtain rfl : own = closest := by simpa [other] using same
      exact ⟨_, held⟩
  · cases found

def OtherHalf (knowledge : NetworkKnowledge S) (ourName : XorName)
    (update : SectionTreeUpdate S) : Prop :=
  update.signedSap.sapPrefix.isExtensionOf knowledge.ourPrefix = true ∧
    update.signedSap.sapPrefix.matchesName ourName = false

/-- No update of a run is one for an extension of what is then our prefix that does not match our
name. -/
def AvoidsOtherHalf (ourName : XorName) :
    NetworkKnowledge S → List (SectionTreeUpdate S) → Prop
  | _, [] => True
  | knowledge, update :: rest =>
    ¬ knowledge.OtherHalf ourName update ∧
      AvoidsOtherHalf ourName (knowledge.updateSapKnowledgeIfValid update ourName).2 rest

def Holds (ourName : XorName) (knowledge : NetworkKnowledge S) : Prop :=
  knowledge.ourPrefix.matchesName ourName = true ∧
    knowledge.sectionTree.getSigned knowledge.ourPrefix = some knowledge.signedSap

end NetworkKnowledge

end

/-! ## Knowledge in step with a history -/

namespace History

variable {S : SectionScheme} {H : History S} {knowledge : NetworkKnowledge S}
  {key top : S.PublicKey} {sapPrefix : Prefix} {tree : SectionTree S} {ourName : XorName}
  {update : SectionTreeUpdate S} {updates : List (SectionTreeUpdate S)}

/-- When the tree takes an update for our name, our SAP becomes that of the update: the chain to
its key and the ancestors in it are there. -/
theorem Synced.update_signedSap (synced : H.Synced tree)
    (updated : knowledge.sectionTree.updateTheSectionTree update = (.ok true, tree))
    (known : tree.sectionsDag.hasKey update.signedSap.sectionKey = true)
    (ours : update.signedSap.sapPrefix.matchesName ourName = true) :
    (knowledge.updateSapKnowledgeIfValid update ourName).2.signedSap = update.signedSap := by
  obtain ⟨chain, returned, is⟩ := synced.exists_chain known
  simp only [NetworkKnowledge.updateSapKnowledgeIfValid, NetworkKnowledge.genesisKey, updated, ours,
    ↓reduceIte, returned]
  generalize (knowledge.sectionMembers.resetInitialMembers _).retain _ = members
  obtain ⟨pruned, done⟩ :=
    members.exists_pruneMembersArchive (is.embedded H.tidy).tidy is.hasKey_bottom
  rw [done]

/-- Knowledge whose tree is in step, with the SAP of a key in view as ours. -/
structure Follows (H : History S) (knowledge : NetworkKnowledge S) : Prop where
  synced : H.Synced knowledge.sectionTree
  own : ∃ key, knowledge.sectionTree.sectionsDag.hasKey key = true ∧
    knowledge.signedSap = H.sap key

namespace Follows

theorem new (synced : H.Synced tree)
    (created : NetworkKnowledge.new sapPrefix tree = .ok knowledge) : H.Follows knowledge := by
  obtain ⟨rfl, found⟩ := NetworkKnowledge.new_eq_ok created
  obtain ⟨key, known, same, -⟩ := synced.exists_key found
  exact ⟨synced, key, known, same⟩

variable (follows : H.Follows knowledge)
include follows

/-- An update of the history is refused and changes neither the tree nor our SAP, or the tree
takes in its branch and our SAP follows when it is for our name. -/
theorem update_cases (whole : H.dag.hasKey key = true)
    (update_sap : update.signedSap = H.sap key)
    (is : SectionsDAG.IsBranch H.dag update.proofChain top key) (ourName : XorName) :
    ((knowledge.updateSapKnowledgeIfValid update ourName).2.sectionTree = knowledge.sectionTree ∧
      (knowledge.updateSapKnowledgeIfValid update ourName).2.signedSap = knowledge.signedSap) ∨
    (knowledge.sectionTree.Accepts update ∧
      H.Synced (knowledge.updateSapKnowledgeIfValid update ourName).2.sectionTree ∧
      (knowledge.updateSapKnowledgeIfValid update ourName).2.sectionTree.sectionsDag.keySet =
        knowledge.sectionTree.sectionsDag.keySet ∪ branch H.dag.parentOf top key ∧
      (knowledge.updateSapKnowledgeIfValid update ourName).2.signedSap =
        if update.signedSap.sapPrefix.matchesName ourName then update.signedSap else knowledge.signedSap) := by
  have tree := knowledge.update_sectionTree update ourName
  obtain ⟨-, refused⟩ | ⟨accepts, -, tree', updated, synced', keys⟩ | ⟨-, error, refused⟩ :=
    follows.synced.update_cases whole update_sap is
  · rw [refused] at tree
    exact Or.inl ⟨tree, NetworkKnowledge.update_signedSap_refused refused (by simp)⟩
  · rw [updated] at tree
    rw [tree]
    refine Or.inr ⟨accepts, synced', keys, ?_⟩
    split
    · rename_i ours
      have shown : key ∈ tree'.sectionsDag.keySet := keys ▸ Or.inr ⟨is.above, .refl⟩
      refine synced'.update_signedSap updated ?_ ours
      rwa [update_sap, H.sap_key whole]
    · rename_i apart
      exact NetworkKnowledge.update_signedSap_other (Bool.eq_false_iff.mpr apart)
  · rw [refused] at tree
    exact Or.inl ⟨tree, NetworkKnowledge.update_signedSap_refused refused (by simp)⟩

theorem step (honest : H.IsUpdate update) (ourName : XorName) :
    H.Follows (knowledge.updateSapKnowledgeIfValid update ourName).2 := by
  obtain ⟨own, known, ours⟩ := follows.own
  obtain ⟨top, key, whole, same, is⟩ := honest.exists_branch
  obtain ⟨unchanged, sap⟩ | ⟨-, synced', keys, sap⟩ := follows.update_cases whole same is ourName
  · exact ⟨unchanged ▸ follows.synced, own, unchanged ▸ known, sap.trans ours⟩
  · refine ⟨synced', ?_⟩
    split at sap
    · exact ⟨key, keys.superset (Or.inr ⟨is.above, .refl⟩), sap.trans same⟩
    · exact ⟨own, keys.superset (Or.inl known), sap.trans ours⟩

theorem run (honest : ∀ update ∈ updates, H.IsUpdate update)
    (ourName : XorName) : H.Follows (knowledge.run ourName updates) := by
  induction updates generalizing knowledge with
  | nil => exact follows
  | cons update rest ih =>
    exact ih (follows.step (honest update List.mem_cons_self) ourName) fun other mem =>
      honest other (List.mem_cons_of_mem _ mem)

theorem getSigned_ourPrefix :
    (∃ sap, knowledge.sectionTree.getSigned knowledge.ourPrefix = some sap) ↔
      knowledge.sectionTree.hasExtension knowledge.ourPrefix = false := by
  rw [← Bool.not_eq_true, SectionTree.hasExtension_iff]
  constructor
  · rintro ⟨sap, found⟩ ⟨other, mem, covers, proper⟩
    obtain ⟨sap', found'⟩ := SectionTree.mem_sections.mp mem
    exact proper (follows.synced.antichain found found' covers)
  · intro none
    obtain ⟨own, known, ours⟩ := follows.own
    obtain ⟨other, sap, found, covers⟩ := follows.synced.exists_covered known
    have same : knowledge.ourPrefix = H.prefixOf own := by
      rw [NetworkKnowledge.ourPrefix, ours, prefixOf]
    rw [← same] at covers
    by_cases proper : knowledge.ourPrefix = other
    · exact ⟨sap, proper ▸ found⟩
    · exact absurd ⟨other, SectionTree.mem_sections.mpr ⟨sap, found⟩, covers, proper⟩ none

theorem exists_closest {own : S.SignedSap}
    (held : knowledge.sectionTree.getSigned knowledge.ourPrefix = some own) (name : XorName) :
    ∃ sap chain, knowledge.closestSignedSapWithChain name = some (sap, chain) ∧
      (∃ known, knowledge.sectionTree.getSigned known = some sap) ∧
      SectionsDAG.IsBranch H.dag chain H.dag.genesisKey sap.sectionKey := by
  obtain ⟨sap, closest, known, found⟩ : ∃ sap, knowledge.closestSignedSap name = some sap ∧
      ∃ known, knowledge.sectionTree.getSigned known = some sap := by
    cases other : knowledge.sectionTree.closest name (some knowledge.ourPrefix) with
    | some sap =>
      exact ⟨sap, by simp [NetworkKnowledge.closestSignedSap, held, other],
        SectionTree.mem_of_closest other⟩
    | none =>
      exact ⟨own, by simp [NetworkKnowledge.closestSignedSap, held, other], _, held⟩
  obtain ⟨key, seen, rfl, -⟩ := follows.synced.exists_key found
  have named := follows.synced.sap_key seen
  obtain ⟨chain, returned, is⟩ := follows.synced.exists_chain seen
  refine ⟨_, chain, ?_, ⟨known, found⟩, named.symm ▸ is⟩
  simp [NetworkKnowledge.closestSignedSapWithChain, closest, NetworkKnowledge.genesisKey, named,
    returned]

end Follows

theorem Synced.holds_new (synced : H.Synced tree) (created : NetworkKnowledge.new sapPrefix tree = .ok knowledge)
    (matching : sapPrefix.matchesName ourName = true) : knowledge.Holds ourName := by
  obtain ⟨rfl, found⟩ := NetworkKnowledge.new_eq_ok created
  obtain ⟨key, -, sap, same⟩ := synced.exists_key found
  have ours : knowledge.ourPrefix = sapPrefix := by
    rw [NetworkKnowledge.ourPrefix, sap, ← same, prefixOf]
  exact ⟨ours ▸ matching, ours ▸ found⟩

theorem Follows.holds_step (follows : H.Follows knowledge) (honest : H.IsUpdate update)
    (holds : knowledge.Holds ourName) (avoids : ¬ knowledge.OtherHalf ourName update) :
    (knowledge.updateSapKnowledgeIfValid update ourName).2.Holds ourName := by
  obtain ⟨matching, held⟩ := holds
  obtain ⟨top, key, whole, same, is⟩ := honest.exists_branch
  obtain ⟨unchanged, sap⟩ | ⟨accepts, -, -, sap⟩ := follows.update_cases whole same is ourName
  · rw [NetworkKnowledge.Holds, NetworkKnowledge.ourPrefix, unchanged, sap]
    exact ⟨matching, held⟩
  · rw [NetworkKnowledge.Holds, NetworkKnowledge.ourPrefix, sap, knowledge.update_sectionTree,
      SectionTree.update_accepted accepts, SectionTree.getSigned, SectionTree.getElem?_placed]
    split
    · rename_i ours
      exact ⟨ours, if_pos rfl⟩
    · rename_i apart
      have differs : knowledge.ourPrefix ≠ update.signedSap.sapPrefix := by
        intro equal
        rw [equal] at matching
        exact apart matching
      have beside : ¬ knowledge.ourPrefix.Covers update.signedSap.sapPrefix := fun covers =>
        avoids ⟨Prefix.isExtensionOf_iff.mpr ⟨covers, differs⟩, Bool.eq_false_iff.mpr apart⟩
      refine ⟨matching, ?_⟩
      rw [if_neg, if_neg]
      · exact held
      · exact beside
      · exact differs

theorem Follows.holds_run (follows : H.Follows knowledge)
    (honest : ∀ update ∈ updates, H.IsUpdate update) (holds : knowledge.Holds ourName)
    (avoids : knowledge.AvoidsOtherHalf ourName updates) : (knowledge.run ourName updates).Holds ourName := by
  induction updates generalizing knowledge with
  | nil => exact holds
  | cons update rest ih =>
    have here := honest update List.mem_cons_self
    exact ih (follows.step here ourName) (fun other mem => honest other (List.mem_cons_of_mem _ mem))
      (follows.holds_step here holds avoids.1) avoids.2

/-- The closest SAP of any name is found in the tree, with the chain from the genesis key to its
key, exactly when the tree holds no extension of our prefix. It never does in a run without an
update for an extension of our prefix that does not match our name. -/
theorem closestSignedSapWithChain_iff (built : SectionTree.new (H.sap H.dag.genesisKey) = .ok tree)
    {earlier : List (SectionTreeUpdate S)} (honest : ∀ update ∈ earlier, H.IsUpdate update)
    (created : NetworkKnowledge.new sapPrefix (tree.run earlier) = .ok knowledge)
    (matching : sapPrefix.matchesName ourName = true) (honest' : ∀ update ∈ updates, H.IsUpdate update) :
    (∀ name, (∃ sap chain, (knowledge.run ourName updates).closestSignedSapWithChain name = some (sap, chain) ∧
        (∃ known, (knowledge.run ourName updates).sectionTree.getSigned known = some sap) ∧
        SectionsDAG.IsBranch H.dag chain H.dag.genesisKey sap.sectionKey) ↔
      (knowledge.run ourName updates).sectionTree.hasExtension (knowledge.run ourName updates).ourPrefix = false) ∧
    (knowledge.AvoidsOtherHalf ourName updates → (knowledge.run ourName updates).sectionTree.hasExtension
        (knowledge.run ourName updates).ourPrefix = false) := by
  have synced := ((synced_new built).run honest).1
  have initial := Follows.new synced created
  have follows := initial.run honest' ourName
  refine ⟨fun name => ?_, fun avoids => ?_⟩
  · rw [← follows.getSigned_ourPrefix]
    constructor
    · rintro ⟨sap, chain, found, -⟩
      cases held : (knowledge.run ourName updates).sectionTree.getSigned
          (knowledge.run ourName updates).ourPrefix with
      | some own => exact ⟨own, rfl⟩
      | none =>
        simp [NetworkKnowledge.closestSignedSapWithChain, NetworkKnowledge.closestSignedSap,
          held] at found
    · rintro ⟨own, held⟩
      exact follows.exists_closest held name
  · have holds := synced.holds_new created matching
    exact follows.getSigned_ourPrefix.mp ⟨_, (initial.holds_run honest' holds avoids).2⟩

/-! ## One name in several views -/

variable {known other : Prefix} {tree' : SectionTree S} {sap sap' : S.SignedSap} {name : XorName}
  (matching : known.matchesName name = true) (matching' : other.matchesName name = true)
include matching matching'

theorem Synced.comparable (synced : H.Synced tree) (synced' : H.Synced tree')
    (found : tree.getSigned known = some sap) (found' : tree'.getSigned other = some sap') :
    Above H.dag.parentOf sap.sectionKey sap'.sectionKey ∨ Above H.dag.parentOf sap'.sectionKey sap.sectionKey := by
  obtain ⟨key, seen, rfl, rfl⟩ := synced.exists_key found
  obtain ⟨key', seen', rfl, rfl⟩ := synced'.exists_key found'
  have whole := synced.hasKey_whole seen
  have whole' := synced'.hasKey_whole seen'
  rw [H.sap_key whole, H.sap_key whole']
  obtain covers | covers := List.prefix_or_prefix_of_prefix (List.isPrefixOf_iff_prefix.mp matching)
    (List.isPrefixOf_iff_prefix.mp matching')
  · exact (above_of_covers whole whole' covers).imp_right And.right
  · exact (above_of_covers whole' whole covers).symm.imp_left And.right

/-- Views of one history neither fork nor go back: the sections that two nodes hold for a name follow one
another, and after more updates a node holds the same section or a later one. -/
theorem run_linear {later : List (SectionTreeUpdate S)} (built : SectionTree.new (H.sap H.dag.genesisKey) = .ok tree)
    (honest : ∀ update ∈ updates, H.IsUpdate update) (honest' : ∀ update ∈ later, H.IsUpdate update)
    (found : (tree.run updates).getSigned known = some sap) (found' : (tree.run later).getSigned other = some sap') :
    (Above H.dag.parentOf sap.sectionKey sap'.sectionKey ∨ Above H.dag.parentOf sap'.sectionKey sap.sectionKey) ∧
      (updates <+: later → Above H.dag.parentOf sap.sectionKey sap'.sectionKey) := by
  have synced := ((synced_new built).run honest).1
  have synced' := ((synced_new built).run honest').1
  have linked := Synced.comparable matching matching' synced synced' found found'
  refine ⟨linked, ?_⟩
  rintro ⟨rest, rfl⟩
  have grown := (synced.run fun update mem => honest' update (List.mem_append_right _ mem)).2
  have whole : (tree.run updates).run rest = tree.run (updates ++ rest) := List.foldl_append.symm
  rw [whole] at grown
  obtain above | below := linked
  · exact above
  · -- The earlier key is still in view, and not below a leaf.
    obtain ⟨key, seen, rfl, -⟩ := synced.exists_key found
    obtain ⟨leaf, seen', rfl, -⟩ := synced'.sections.mp found'
    rw [synced.sap_key seen, synced'.sap_key seen'.1] at below ⊢
    rw [synced'.embedded.view.leaf_eq H.tidy.ends seen' (grown seen) below]

end History

/-! ## The halves of a split -/

def sampleName : XorName := ⟨List.replicate 256 false, List.length_replicate⟩

def sampleKnowledge : NetworkKnowledge sampleScheme where
  signedSap := sampleSap 0 []
  sectionMembers := {}
  sectionTree := sampleGenesis

namespace History

/-- After the first half, which has our name, is learnt before the second, every closest SAP is
found. -/
theorem closestSignedSapWithChain_sampleFirstHalf :
    (sampleKnowledge.updateSapKnowledgeIfValid sampleFirstHalf sampleName).1 = .ok true ∧
    ∀ name, ∃ sap chain,
      (sampleKnowledge.run sampleName [sampleFirstHalf, sampleSecondHalf]).closestSignedSapWithChain
        name = some (sap, chain) := by
  have created : NetworkKnowledge.new default (sampleGenesis.run []) = .ok sampleKnowledge := rfl
  have matching : (default : Prefix).matchesName sampleName = true := rfl
  have earlier : ∀ update ∈ ([] : List (SectionTreeUpdate sampleScheme)),
      sampleHistory.IsUpdate update := by simp
  have honest : ∀ update ∈ [sampleFirstHalf, sampleSecondHalf], sampleHistory.IsUpdate update := by
    simp [sampleSecondHalf_isUpdate, sampleFirstHalf_isUpdate]
  obtain ⟨iff, avoiding⟩ := closestSignedSapWithChain_iff sampleHistory_built earlier created matching
    honest
  -- The first update matches our name, and the second is no extension of the prefix it brings.
  have avoids : sampleKnowledge.AvoidsOtherHalf sampleName [sampleFirstHalf, sampleSecondHalf] := by
    refine ⟨fun other => ?_, fun other => ?_, trivial⟩
    · exact Bool.noConfusion (show true = false from other.2)
    · exact Bool.noConfusion (show false = true from other.1)
  refine ⟨rfl, fun name => ?_⟩
  obtain ⟨sap, chain, found, -⟩ := (iff name).mpr (avoiding avoids)
  exact ⟨sap, chain, found⟩

/-- After the second half, which does not have our name, is learnt first, our prefix is gone from
the tree and no closest SAP is found. -/
theorem closestSignedSapWithChain_sampleSecondHalf :
    NetworkKnowledge.new default sampleGenesis = .ok sampleKnowledge ∧
    (default : Prefix).matchesName sampleName = true ∧
    sampleHistory.IsUpdate sampleSecondHalf ∧
    (sampleKnowledge.updateSapKnowledgeIfValid sampleSecondHalf sampleName).1 = .ok true ∧
    ∀ name, (sampleKnowledge.run sampleName [sampleSecondHalf]).closestSignedSapWithChain name = none :=
  ⟨rfl, rfl, sampleSecondHalf_isUpdate, rfl, fun _ => rfl⟩

theorem run_linear_sampleLate : Above sampleHistory.dag.parentOf (0 : Nat) (2 : Nat) := by
  have matching' : (⟨[false]⟩ : Prefix).matchesName sampleName = true := rfl
  have found : (sampleGenesis.run [sampleLate]).getSigned ⟨[]⟩ = some (sampleSap 0 []) := rfl
  have found' : (sampleGenesis.run [sampleLate, sampleFirstHalf]).getSigned ⟨[false]⟩ =
    some (sampleSap 2 [false]) := rfl
  refine (run_linear rfl matching' sampleHistory_built ?_ ?_ found found').2 (by simp)
  all_goals simp [sampleLate_isUpdate, sampleFirstHalf_isUpdate]

end History

end SafeNetwork
