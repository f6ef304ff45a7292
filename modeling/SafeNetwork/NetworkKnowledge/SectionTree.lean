import SafeNetwork.NetworkKnowledge.SectionAuthorityProvider
import SafeNetwork.NetworkKnowledge.DagInvariant
import SafeNetwork.NetworkKnowledge.SampleKeys

/-!
# The section tree

`section_tree/mod.rs`: the latest known SAP of each prefix, and the DAG of all section keys.
`update_the_section_tree` takes in a SAP with a proof chain. It either refuses the update and
leaves the tree alone, or has checked all it checks (`Accepts`) and then changes the map of the
SAPs before it merges the chain into the DAG.
-/

namespace SafeNetwork

open Std

/-! ## Iterators -/

/-- `Iterator::min_by` — the first of the least elements. -/
def minBy {α : Type} (compare : α → α → Ordering) : List α → Option α
  | [] => none
  | first :: rest =>
    some (rest.foldl (fun best next => if compare best next = .gt then next else best) first)

/-- `Iterator::max_by_key` — the last of the greatest elements. -/
def maxByKey {α : Type} (key : α → Nat) : List α → Option α
  | [] => none
  | first :: rest =>
    some (rest.foldl (fun best next => if compare (key best) (key next) = .gt then best else next)
      first)

structure SectionTree (S : SectionScheme) where
  sections : ExtTreeMap Prefix S.SignedSap
  sectionsDag : SectionsDAG S.toKeyScheme

/-- `SectionTreeUpdate` — a signed SAP and the chain that is to prove it. -/
structure SectionTreeUpdate (S : SectionScheme) where
  signedSap : S.SignedSap
  proofChain : SectionsDAG S.toKeyScheme

namespace SectionTree

variable {S : SectionScheme}

/-- `SectionTree::new` — a tree with just the genesis section. -/
def new (genesisSap : S.SignedSap) : S.Result (SectionTree S) :=
  if genesisSap.sapPrefix ≠ default then .error .nonGenesisSap
  else
    .ok ⟨(∅ : ExtTreeMap Prefix S.SignedSap).insert default genesisSap,
      .new genesisSap.sectionKey⟩

def genesisKey (self : SectionTree S) : S.PublicKey := self.sectionsDag.genesisKey

/-- `SectionTree::closest` — the known section closest to a name. -/
def closest (self : SectionTree S) (name : XorName) (exclude : Option Prefix) :
    Option S.SignedSap :=
  (minBy (fun left right => S.cmpDistance left.1 right.1 name)
    (self.sections.toList.filter fun entry => some entry.1 ≠ exclude)).map Prod.snd

def getSigned (self : SectionTree S) (sapPrefix : Prefix) : Option S.SignedSap :=
  self.sections[sapPrefix]?

/-- `SectionTree::get_signed_by_name` — the known section with the most bits in common. -/
def getSignedByName (self : SectionTree S) (name : XorName) : S.Result S.SignedSap :=
  match maxByKey (fun entry => S.commonPrefix entry.1 name) self.sections.toList with
  | some entry => .ok entry.2
  | none => .error .noMatchingSection

def sectionKeys (self : SectionTree S) : List S.PublicKey :=
  self.sections.toList.map fun entry => entry.2.sectionKey

/-! ## Updates -/

/-- The loop of `SectionTree::prune`, for a prefix of at most `bound` bits. -/
def pruneLoop : Nat → ExtTreeMap Prefix S.SignedSap → Prefix → ExtTreeMap Prefix S.SignedSap
  | 0, sections, sapPrefix => sections.erase sapPrefix
  | bound + 1, sections, sapPrefix =>
    let sections := sections.erase sapPrefix
    if sapPrefix.isEmpty then sections else pruneLoop bound sections sapPrefix.popped

/-- `SectionTree::prune` — remove a prefix and its ancestors. -/
def prune (self : SectionTree S) (sapPrefix : Prefix) : SectionTree S :=
  { self with sections := pruneLoop sapPrefix.bits.length self.sections sapPrefix }

def hasExtension (self : SectionTree S) (sapPrefix : Prefix) : Bool :=
  self.sections.keys.any fun known => known.isExtensionOf sapPrefix

/-- `SectionTree::insert` — whether the SAP was inserted, and the tree afterwards. -/
def insert (self : SectionTree S) (sap : S.SignedSap) : Bool × SectionTree S :=
  let sapPrefix := sap.sapPrefix
  if self.hasExtension sapPrefix then (false, self)
  else
    let inserted := { self with sections := self.sections.insert sapPrefix sap }
    if sapPrefix.isEmpty then (true, inserted) else (true, inserted.prune sapPrefix.popped)

/-- The first check of `SectionTree::update_the_section_tree`: of the chain, by the prefix. -/
def verifyChain (self : SectionTree S) (update : SectionTreeUpdate S) : S.Result Unit :=
  match self.getSigned update.signedSap.sapPrefix with
  | some sap =>
    if !update.proofChain.hasKey sap.sectionKey then .error .sapKeyNotCoveredByProofChain
    else .ok ()
  | none =>
    if !update.proofChain.checkTrust self.sectionsDag.keys then
      .error (.untrustedProofChain "None of the keys were found on our section chain")
    else .ok ()

/-- The checks of `SectionTree::update_the_section_tree` before the insertion, in order. -/
def verifyUpdate (self : SectionTree S) (update : SectionTreeUpdate S) : S.Result Unit := do
  self.verifyChain update
  if !update.signedSap.selfVerify S.serializeSap then
    .error (.untrustedSectionAuthProvider "Invalid signature")
  else if update.signedSap.sig.publicKey ≠ update.signedSap.sectionKey then
    .error (.untrustedSectionAuthProvider "Section key does not match signature's key")
  else
    let lastKey ← update.proofChain.lastKey
    if lastKey ≠ update.signedSap.sectionKey then
      .error (.untrustedProofChain "Provided section key is not the last key of the proof chain")
    else .ok ()

/-- `SectionTree::update_the_section_tree` — the result of the call and the tree after it. -/
def updateTheSectionTree (self : SectionTree S) (update : SectionTreeUpdate S) :
    S.Result Bool × SectionTree S :=
  if self.sectionsDag.hasKey update.signedSap.sectionKey then (.ok false, self)
  else
    match self.verifyUpdate update with
    | .error error => (.error error, self)
    | .ok () =>
      match self.insert update.signedSap with
      | (false, self) => (.ok false, self)
      | (true, self) =>
        match self.sectionsDag.merge update.proofChain with
        | (.error error, dag) => (.error error, { self with sectionsDag := dag })
        | (.ok (), dag) => (.ok true, { self with sectionsDag := dag })

def run (self : SectionTree S) (updates : List (SectionTreeUpdate S)) : SectionTree S :=
  updates.foldl (fun tree update => (tree.updateTheSectionTree update).2) self

end SectionTree

/-! ## What one update does -/

variable {S : SectionScheme} {α : Type} {list : List α} {chosen : α}

theorem foldl_choose_mem {choose : α → α → α} (either : ∀ a b, choose a b = a ∨ choose a b = b)
    (first : α) : list.foldl choose first ∈ first :: list := by
  induction list generalizing first with
  | nil => simp
  | cons next rest ih =>
    have inside := ih (choose first next)
    rw [List.foldl_cons]
    obtain same | same := either first next
    · rw [same] at inside ⊢
      exact List.mem_cons.mpr (by simpa using (List.mem_cons.mp inside).imp_right Or.inr)
    · rw [same] at inside ⊢
      exact List.mem_cons_of_mem first inside

theorem mem_of_minBy {compare : α → α → Ordering} (found : minBy compare list = some chosen) : chosen ∈ list := by
  cases list with
  | nil => simp [minBy] at found
  | cons first rest =>
    obtain rfl := Option.some.inj found
    exact foldl_choose_mem (fun a b => by split <;> simp) first

theorem mem_of_maxByKey {key : α → Nat} (found : maxByKey key list = some chosen) : chosen ∈ list := by
  cases list with
  | nil => simp [maxByKey] at found
  | cons first rest =>
    obtain rfl := Option.some.inj found
    exact foldl_choose_mem (fun a b => by split <;> simp) first

namespace SectionTree

variable {self tree : SectionTree S} {update : SectionTreeUpdate S} {sap : S.SignedSap}
  {known : Prefix} {sections : ExtTreeMap Prefix S.SignedSap} {name : XorName} {genesisSap : S.SignedSap}

theorem mem_of_closest {exclude : Option Prefix} (found : self.closest name exclude = some sap) :
    ∃ known, self.getSigned known = some sap := by
  obtain ⟨⟨known, sap⟩, chosen, rfl⟩ := Option.map_eq_some_iff.mp found
  have mem := (List.mem_filter.mp (mem_of_minBy chosen)).1
  exact ⟨known, ExtTreeMap.mem_toList_iff_getElem?_eq_some.mp mem⟩

theorem mem_of_getSignedByName (found : self.getSignedByName name = .ok sap) :
    ∃ known, self.getSigned known = some sap := by
  unfold getSignedByName at found
  split at found
  · rename_i entry chosen
    obtain rfl := Except.ok.inj found
    exact ⟨entry.1, ExtTreeMap.mem_toList_iff_getElem?_eq_some.mp (mem_of_maxByKey chosen)⟩
  · cases found

/-- `prune` removes what covers a prefix and nothing else. -/
theorem getElem?_pruneLoop (bound : Nat) (sapPrefix : Prefix)
    (enough : sapPrefix.bits.length ≤ bound) (sections : ExtTreeMap Prefix S.SignedSap) :
    (pruneLoop bound sections sapPrefix)[known]? = if known.Covers sapPrefix then none else sections[known]? := by
  have erased : ∀ (sections : ExtTreeMap Prefix S.SignedSap) (sapPrefix : Prefix),
      (sections.erase sapPrefix)[known]? = if known = sapPrefix then none else sections[known]? := by
    intro sections sapPrefix
    rw [ExtTreeMap.getElem?_erase]
    simp only [Std.compare_eq_iff_eq, @eq_comm _ sapPrefix]
  induction bound generalizing sapPrefix sections with
  | zero =>
    obtain rfl : sapPrefix = default := Prefix.ext (List.eq_nil_of_length_eq_zero (by omega))
    simp only [pruneLoop, erased, Prefix.covers_default_iff]
  | succ bound ih =>
    rw [pruneLoop]
    cases empty : sapPrefix.isEmpty with
    | true =>
      obtain rfl := Prefix.isEmpty_iff.mp empty
      simp only [↓reduceIte, erased, Prefix.covers_default_iff]
    | false =>
      have shorter : sapPrefix.popped.bits.length ≤ bound := by
        simp only [Prefix.popped, List.length_dropLast]
        omega
      simp only [Bool.false_eq_true, ↓reduceIte, ih _ shorter, erased, Prefix.covers_iff_popped empty]
      split_ifs <;> tauto

def placed (sections : ExtTreeMap Prefix S.SignedSap) (sap : S.SignedSap) :
    ExtTreeMap Prefix S.SignedSap :=
  if sap.sapPrefix.isEmpty then sections.insert sap.sapPrefix sap
  else pruneLoop sap.sapPrefix.popped.bits.length (sections.insert sap.sapPrefix sap)
    sap.sapPrefix.popped

theorem getElem?_placed : (placed sections sap)[known]? = if known = sap.sapPrefix then some sap
      else if known.Covers sap.sapPrefix then none else sections[known]? := by
  have inserted : (sections.insert sap.sapPrefix sap)[known]? =
      if known = sap.sapPrefix then some sap else sections[known]? := by
    rw [ExtTreeMap.getElem?_insert]
    simp only [Std.compare_eq_iff_eq, @eq_comm _ sap.sapPrefix]
  unfold placed
  cases empty : sap.sapPrefix.isEmpty with
  | true =>
    have root := Prefix.isEmpty_iff.mp empty
    simp only [↓reduceIte, inserted]
    split
    · rfl
    · rename_i differs
      rw [if_neg]
      rw [root] at differs ⊢
      exact fun covers => differs (Prefix.covers_default_iff.mp covers)
  | false =>
    rw [if_neg Bool.false_ne_true, getElem?_pruneLoop _ _ (Nat.le_refl _), inserted]
    simp only [Prefix.covers_iff_popped empty]
    by_cases same : known = sap.sapPrefix
    · have above : ¬ known.Covers sap.sapPrefix.popped := fun covers =>
        Prefix.not_covers_popped empty (same ▸ covers)
      rw [if_neg above, if_pos same, if_pos same]
    · simp only [same, ↓reduceIte, false_or]

theorem insert_eq (self : SectionTree S) (sap : S.SignedSap) : self.insert sap =
      if self.hasExtension sap.sapPrefix then (false, self)
      else (true, { self with sections := placed self.sections sap }) := by
  simp only [insert, placed, prune]
  split
  · rfl
  · split <;> rfl

theorem mem_sections : known ∈ self.sections ↔ ∃ sap, self.getSigned known = some sap := by
  rw [ExtTreeMap.mem_iff_isSome_getElem?, Option.isSome_iff_exists]
  rfl

theorem hasExtension_iff {sapPrefix : Prefix} : self.hasExtension sapPrefix = true ↔
      ∃ known ∈ self.sections, sapPrefix.Covers known ∧ sapPrefix ≠ known := by
  simp [hasExtension, List.any_eq_true, ExtTreeMap.mem_keys, Prefix.isExtensionOf_iff]

/-- What an update has passed before it changes anything. -/
structure Accepts (tree : SectionTree S) (update : SectionTreeUpdate S) : Prop where
  fresh : tree.sectionsDag.hasKey update.signedSap.sectionKey = false
  /-- The chain contains the key of the SAP known for the prefix, if there is one. -/
  covered : ∀ sap, tree.getSigned update.signedSap.sapPrefix = some sap →
    update.proofChain.hasKey sap.sectionKey = true
  trusted : tree.getSigned update.signedSap.sapPrefix = none →
    update.proofChain.checkTrust tree.sectionsDag.keys = true
  verified : update.signedSap.selfVerify S.serializeSap = true
  own_key : update.signedSap.sig.publicKey = update.signedSap.sectionKey
  last_key : update.proofChain.lastKey = .ok update.signedSap.sectionKey
  no_extension : tree.hasExtension update.signedSap.sapPrefix = false

theorem verifyUpdate_eq_ok : self.verifyUpdate update = .ok () ↔
      (∀ sap, self.getSigned update.signedSap.sapPrefix = some sap → update.proofChain.hasKey sap.sectionKey = true) ∧
      (self.getSigned update.signedSap.sapPrefix = none → update.proofChain.checkTrust self.sectionsDag.keys = true) ∧
      update.signedSap.selfVerify S.serializeSap = true ∧
      update.signedSap.sig.publicKey = update.signedSap.sectionKey ∧
      update.proofChain.lastKey = .ok update.signedSap.sectionKey := by
  have chain : self.verifyChain update = .ok () ↔
      (∀ sap, self.getSigned update.signedSap.sapPrefix = some sap →
        update.proofChain.hasKey sap.sectionKey = true) ∧
      (self.getSigned update.signedSap.sapPrefix = none →
        update.proofChain.checkTrust self.sectionsDag.keys = true) := by
    unfold verifyChain
    cases found : self.getSigned update.signedSap.sapPrefix with
    | some sap => cases covered : update.proofChain.hasKey sap.sectionKey <;> simp [covered]
    | none =>
      cases trusted : update.proofChain.checkTrust self.sectionsDag.keys <;> simp
  rw [← and_assoc, ← chain]
  unfold verifyUpdate
  cases self.verifyChain update with
  | error error => simp [bind, Except.bind]
  | ok _ =>
    cases verified : update.signedSap.selfVerify S.serializeSap
    · simp [bind, Except.bind]
    · by_cases own : update.signedSap.sig.publicKey = update.signedSap.sectionKey
      · cases last : update.proofChain.lastKey with
        | error error => simp [own, bind, Except.bind]
        | ok lastKey =>
          by_cases same : lastKey = update.signedSap.sectionKey <;>
            simp [own, same, bind, Except.bind]
      · simp [own, bind, Except.bind]

theorem update_refused (refused : ¬ self.Accepts update) :
    ∃ result, self.updateTheSectionTree update = (result, self) ∧ result ≠ .ok true := by
  unfold updateTheSectionTree
  cases fresh : self.sectionsDag.hasKey update.signedSap.sectionKey with
  | true => exact ⟨.ok false, rfl, by simp⟩
  | false =>
    cases checks : self.verifyUpdate update with
    | error error => exact ⟨.error error, rfl, by simp⟩
    | ok _ =>
      obtain ⟨covered, trusted, verified, own, last⟩ := verifyUpdate_eq_ok.mp checks
      cases extension : self.hasExtension update.signedSap.sapPrefix with
      | true => exact ⟨.ok false, by simp [insert_eq, extension], by simp⟩
      | false => exact absurd ⟨fresh, covered, trusted, verified, own, last, extension⟩ refused

theorem update_accepted (accepts : self.Accepts update) : self.updateTheSectionTree update =
      ((self.sectionsDag.merge update.proofChain).1.map fun _ => true,
        ⟨placed self.sections update.signedSap, (self.sectionsDag.merge update.proofChain).2⟩) := by
  have checks : self.verifyUpdate update = .ok () := verifyUpdate_eq_ok.mpr
    ⟨accepts.covered, accepts.trusted, accepts.verified, accepts.own_key, accepts.last_key⟩
  simp only [updateTheSectionTree, accepts.fresh, checks, insert_eq, accepts.no_extension,
    Bool.false_eq_true, ↓reduceIte]
  rcases self.sectionsDag.merge update.proofChain with ⟨_ | _, dag⟩ <;> rfl

/-! ## The map of SAPs over whole runs -/

/-- A map that holds a SAP, each under its own prefix, and no two with one covering the other. -/
structure Orderly (sections : ExtTreeMap Prefix S.SignedSap) : Prop where
  nonempty : ∃ known, known ∈ sections
  keyed : ∀ {known : Prefix} {sap : S.SignedSap}, sections[known]? = some sap →
    sap.sapPrefix = known
  antichain : ∀ {known other : Prefix}, known ∈ sections → other ∈ sections → known.Covers other →
    known = other

theorem new_eq_ok : new genesisSap = .ok tree ↔ genesisSap.sapPrefix = default ∧
      tree = ⟨(∅ : ExtTreeMap Prefix S.SignedSap).insert default genesisSap, .new genesisSap.sectionKey⟩ := by
  unfold new
  by_cases genesis : genesisSap.sapPrefix = default
  · simp [genesis, eq_comm]
  · simp [genesis]

theorem Orderly.genesis (root : genesisSap.sapPrefix = default) :
    Orderly ((∅ : ExtTreeMap Prefix S.SignedSap).insert default genesisSap) where
  nonempty := ⟨default, by simp⟩
  keyed := by
    intro known sap found
    rw [ExtTreeMap.getElem?_insert] at found
    simp only [Std.compare_eq_iff_eq, ExtTreeMap.getElem?_empty] at found
    split at found
    · rename_i same
      rw [← Option.some.inj found, root, same]
    · cases found
  antichain := by
    intro known other first second _
    simp only [ExtTreeMap.mem_insert, Std.compare_eq_iff_eq, ExtTreeMap.not_mem_empty,
      or_false] at first second
    rw [← first, ← second]

theorem mem_placed : known ∈ placed sections sap ↔
      known = sap.sapPrefix ∨ (¬ known.Covers sap.sapPrefix ∧ known ∈ sections) := by
  rw [ExtTreeMap.mem_iff_isSome_getElem?, getElem?_placed, ExtTreeMap.mem_iff_isSome_getElem?]
  split_ifs with same covers <;> simp [*]

/-- An insertion without known extension keeps the map in order: `insert` looks for descendants
of the prefix, and `prune` removes its ancestors. -/
theorem Orderly.placed (orderly : Orderly sections)
    (clear : ∀ known ∈ sections, sap.sapPrefix.Covers known → sap.sapPrefix = known) :
    Orderly (placed sections sap) where
  nonempty := ⟨sap.sapPrefix, mem_placed.mpr (Or.inl rfl)⟩
  keyed := by
    intro known other found
    rw [getElem?_placed] at found
    split_ifs at found with same covers
    · rw [← Option.some.inj found, same]
    · exact orderly.keyed found
  antichain := by
    intro known other first second covers
    obtain rfl | ⟨apart, old⟩ := mem_placed.mp first
    · obtain rfl | ⟨-, old'⟩ := mem_placed.mp second
      · rfl
      · exact clear other old' covers
    · obtain rfl | ⟨-, old'⟩ := mem_placed.mp second
      · exact absurd covers apart
      · exact orderly.antichain old old' covers

theorem Orderly.step (orderly : Orderly self.sections) (update : SectionTreeUpdate S) :
    Orderly (self.updateTheSectionTree update).2.sections := by
  by_cases accepts : self.Accepts update
  · rw [update_accepted accepts]
    refine orderly.placed fun known mem covers => ?_
    by_contra differs
    have extension := hasExtension_iff.mpr ⟨known, mem, covers, differs⟩
    simp [accepts.no_extension] at extension
  · obtain ⟨result, unchanged, -⟩ := update_refused accepts
    rw [unchanged]
    exact orderly

theorem Orderly.run (orderly : Orderly self.sections) (updates : List (SectionTreeUpdate S)) :
    Orderly (self.run updates).sections := by
  induction updates generalizing self with
  | nil => exact orderly
  | cons update rest ih => exact ih (orderly.step update)

/-- After any updates of a new tree, some section is known, each under its own prefix, no prefix
is an extension of another, and a further update that returns `Ok(true)` removes only SAPs whose
prefix is the one it inserts or an ancestor of it. -/
theorem sections_run (genesisSap : S.SignedSap) (built : new genesisSap = .ok tree)
    (updates : List (SectionTreeUpdate S)) : (∃ known, known ∈ (tree.run updates).sections) ∧
    (∀ (known : Prefix) (sap : S.SignedSap), (tree.run updates).sections[known]? = some sap → sap.sapPrefix = known) ∧
    (∀ known ∈ (tree.run updates).sections, ∀ other ∈ (tree.run updates).sections,
      known.isExtensionOf other = false) ∧
    ∀ update, ((tree.run updates).updateTheSectionTree update).1 = .ok true →
      ∀ (known : Prefix) (sap : S.SignedSap), (tree.run updates).sections[known]? = some sap →
        ((tree.run updates).updateTheSectionTree update).2.sections[known]? = some sap ∨
          known.Covers update.signedSap.sapPrefix := by
  have initial : Orderly tree.sections := by
    obtain ⟨root, rfl⟩ := new_eq_ok.mp built
    exact .genesis root
  have orderly := initial.run updates
  refine ⟨orderly.nonempty, fun _ _ => orderly.keyed, ?_, ?_⟩
  · intro known mem other mem'
    by_contra extension
    rw [Bool.not_eq_false, Prefix.isExtensionOf_iff] at extension
    exact extension.2 (orderly.antichain mem' mem extension.1)
  · intro update updated known sap found
    by_cases accepts : (tree.run updates).Accepts update
    · by_cases covers : known.Covers update.signedSap.sapPrefix
      · exact Or.inr covers
      · left
        rw [update_accepted accepts, getElem?_placed, if_neg, if_neg covers, found]
        rintro rfl
        exact covers .refl
    · obtain ⟨result, unchanged, differs⟩ := update_refused accepts
      rw [unchanged] at updated
      exact absurd updated differs

end SectionTree

/-! ## A sample scheme -/

def sampleCommonPrefix (sapPrefix : Prefix) (name : XorName) : Nat :=
  ((sapPrefix.bits.zip name.bits).takeWhile fun pair => pair.1 == pair.2).length

/-- The sample keys with key sets of one key; a SAP is encoded by its key alone, which is enough
for concrete runs. -/
abbrev sampleScheme : SectionScheme where
  toKeyScheme := sampleKeys
  PublicKeySet := Nat
  NodeId := Nat
  NodeState := Nat
  publicKey key := key
  serializeSap sap := some (List.replicate sap.publicKeySet 0)
  serializeNodeState node := some (List.replicate node 0)
  commonPrefix := sampleCommonPrefix
  cmpDistance left right name :=
    compare (sampleCommonPrefix right name) (sampleCommonPrefix left name)

def sampleSap (key : Nat) (bits : List Bool) : sampleScheme.SignedSap where
  value := ⟨⟨bits⟩, key, ∅, ∅, 0⟩
  sig := ⟨key, sampleSig key key⟩

def sampleGenesis : SectionTree sampleScheme :=
  ⟨(∅ : ExtTreeMap Prefix sampleScheme.SignedSap).insert default (sampleSap 0 []), .new (0 : Nat)⟩

/-- The genesis section churns: key `1` takes over its prefix. -/
def sampleChurn : SectionTreeUpdate sampleScheme where
  signedSap := sampleSap 1 []
  proofChain := (SectionsDAG.new 0 : SectionsDAG sampleKeys).attach 0 1 (sampleSig 0 1)

namespace SectionTree

theorem sections_run_sampleChurn : (sampleGenesis.updateTheSectionTree sampleChurn).1 = .ok true ∧
    ∀ (known : Prefix) (sap : sampleScheme.SignedSap), sampleGenesis.sections[known]? = some sap →
      (sampleGenesis.updateTheSectionTree sampleChurn).2.sections[known]? = some sap ∨
        known.Covers ⟨[]⟩ :=
  ⟨rfl, (sections_run (sampleSap 0 []) rfl []).2.2.2 sampleChurn rfl⟩

end SectionTree

end SafeNetwork
