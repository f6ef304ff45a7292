import SafeNetwork.NetworkKnowledge.SectionLookup
import SafeNetwork.Node.AntiEntropy

/-!
# Redirects

An elder that gets a message for a name outside of its prefix answers with the SAP of the closest
section it knows of, its own left out. When the sections it knows do not cover the name, its own can
be the closest of all, and the answer leads away from the name. Two such elders send a message back and
forth.
-/

namespace SafeNetwork

open Std

variable {M : MessageScheme} {H : History M.toSectionScheme} {isSelfElder : Bool} {wireMsg : WireMsg M}
  {knowledge : NetworkKnowledge M.toSectionScheme} {update : SectionTreeUpdate M.toSectionScheme}
  {bounced : UsrMsgBytes} {distance : Prefix → XorName → Nat} {name : XorName}

/-! ## One redirect -/

theorem closest_of_redirect
    (answered : checkForEntropy isSelfElder wireMsg knowledge = .ok (some (update, .redirect bounced))) :
    knowledge.closestSignedSap wireMsg.dst.name = some update.signedSap := by
  simp only [checkForEntropy] at answered
  split at answered
  · split at answered
    · cases answered
    · split at answered
      · rename_i signedSap proofChain found
        obtain ⟨closest, returned, rest⟩ := Option.bind_eq_some_iff.mp found
        rw [← update_of_bounced answered]
        split at rest
        · cases rest
          exact returned
        · cases rest
      · cases answered
  · split at answered
    · cases answered
    · cases bouncing : wireMsg.serialize with
      | error error => simp [bouncing, Except.mapError, bind, Except.bind] at answered
      | ok bytes => simp [bouncing, Except.mapError, bind, Except.bind, pure, Except.pure] at answered

/-- A section other than ours that we know is strictly closer to a name than ours. -/
def NetworkKnowledge.KnowsCloser (knowledge : NetworkKnowledge M.toSectionScheme) (name : XorName) : Prop :=
  ∃ known ∈ knowledge.sectionTree.sections, known ≠ knowledge.ourPrefix ∧
    M.cmpDistance known knowledge.ourPrefix name = .lt

namespace History

/-- What a node can know: knowledge created from some updates of the history, after some more of them. -/
def Reaches (H : History M.toSectionScheme) (knowledge : NetworkKnowledge M.toSectionScheme) : Prop :=
  ∃ tree sapPrefix elder elderName earlier updates,
    SectionTree.new (H.sap H.dag.genesisKey) = .ok tree ∧
    (∀ update ∈ earlier, H.IsUpdate update) ∧
    NetworkKnowledge.new sapPrefix (tree.run earlier) = .ok elder ∧
    (∀ update ∈ updates, H.IsUpdate update) ∧ knowledge = elder.run elderName updates

theorem Reaches.follows (reaches : H.Reaches knowledge) : H.Follows knowledge := by
  obtain ⟨tree, sapPrefix, elder, elderName, earlier, updates, built, honest, created, later, rfl⟩ := reaches
  exact (Follows.new ((synced_new built).run honest).1 created).run later elderName

variable {tree : SectionTree M.toSectionScheme} {known : Prefix}

theorem Synced.sections_antichain (synced : H.Synced tree) : tree.Antichain := by
  intro known mem other mem' covers
  obtain ⟨sap, found⟩ := SectionTree.exists_found mem
  obtain ⟨sap', found'⟩ := SectionTree.exists_found mem'
  exact synced.antichain found found' covers

theorem Synced.sapPrefix_eq (synced : H.Synced tree) {sap : M.SignedSap} (found : tree.getSigned known = some sap) : sap.sapPrefix = known := by
  obtain ⟨key, -, rfl, same⟩ := synced.exists_key found
  exact same

section

variable (follows : H.Follows knowledge) (measured : M.Measured distance)
  (answered : checkForEntropy isSelfElder wireMsg knowledge = .ok (some (update, .redirect bounced)))
  (other : update.signedSap.sapPrefix ≠ knowledge.ourPrefix)
include follows measured answered other

theorem redirect_least :
    knowledge.ourPrefix ∈ knowledge.sectionTree.sections ∧
    update.signedSap.sapPrefix ∈ knowledge.sectionTree.sections ∧
    ∀ known ∈ knowledge.sectionTree.sections, known ≠ knowledge.ourPrefix →
      distance update.signedSap.sapPrefix wireMsg.dst.name ≤ distance known wireMsg.dst.name := by
  have antichain := follows.synced.sections_antichain
  obtain ⟨fallback, held, chosen⟩ := Option.bind_eq_some_iff.mp (closest_of_redirect answered)
  have own := SectionTree.mem_of_found held
  cases found : knowledge.sectionTree.closest wireMsg.dst.name (some knowledge.ourPrefix) with
  | none =>
    -- Only our own section is known.
    obtain rfl : fallback = update.signedSap := by simpa [found] using chosen
    exact absurd (follows.synced.sapPrefix_eq held) other
  | some sap =>
    obtain rfl : sap = update.signedSap := by simpa [found] using chosen
    obtain ⟨known, there, -, least⟩ := antichain.closest_le measured found
    obtain rfl := follows.synced.sapPrefix_eq there
    refine ⟨own, SectionTree.mem_of_found there, fun other mem differs => ?_⟩
    exact least other mem fun same => differs (Option.some.inj same)

theorem redirect_closer_iff :
    (M.cmpDistance update.signedSap.sapPrefix knowledge.ourPrefix wireMsg.dst.name = .lt ↔
      knowledge.KnowsCloser wireMsg.dst.name) ∧
    (M.cmpDistance update.signedSap.sapPrefix knowledge.ourPrefix wireMsg.dst.name = .lt →
      distance update.signedSap.sapPrefix wireMsg.dst.name < distance knowledge.ourPrefix wireMsg.dst.name) := by
  have antichain := follows.synced.sections_antichain
  obtain ⟨own, there, least⟩ := redirect_least follows measured answered other
  have compared : ∀ known ∈ knowledge.sectionTree.sections, known ≠ knowledge.ourPrefix →
      (M.cmpDistance known knowledge.ourPrefix wireMsg.dst.name = .lt ↔
        distance known wireMsg.dst.name < distance knowledge.ourPrefix wireMsg.dst.name) := by
    intro known mem differs
    rw [measured.cmpDistance_eq _ (antichain.incompatible mem own differs), Nat.compare_eq_lt]
  refine ⟨⟨fun closer => ⟨_, there, other, closer⟩, ?_⟩, (compared _ there other).mp⟩
  rintro ⟨known, mem, differs, closer⟩
  exact (compared _ there other).mpr
    (Nat.lt_of_le_of_lt (least known mem differs) ((compared known mem differs).mp closer))

end

theorem Follows.knowsCloser (follows : H.Follows knowledge) (measured : M.Measured distance)
    (own : knowledge.ourPrefix ∈ knowledge.sectionTree.sections) (mem : known ∈ knowledge.sectionTree.sections) (matching : known.matchesName name = true)
    (outside : knowledge.ourPrefix.matchesName name = false) : knowledge.KnowsCloser name := by
  have differs : known ≠ knowledge.ourPrefix := by
    rintro same
    rw [← same, matching] at outside
    cases outside
  have incompatible := follows.synced.sections_antichain.incompatible mem own differs
  refine ⟨known, mem, differs, ?_⟩
  rw [measured.cmpDistance_eq _ incompatible, Nat.compare_eq_lt]
  exact measured.closer matching incompatible

end History

/-! ## Following redirects -/

def RedirectsTo (name : XorName) (here there : NetworkKnowledge M.toSectionScheme) : Prop :=
  ∃ (wireMsg : WireMsg M) (update : SectionTreeUpdate M.toSectionScheme) (bounced : UsrMsgBytes),
    wireMsg.dst.name = name ∧
    checkForEntropy true wireMsg here = .ok (some (update, .redirect bounced)) ∧
    update.signedSap.sapPrefix = there.ourPrefix ∧ there.ourPrefix ≠ here.ourPrefix

namespace History

/-- A redirect makes progress. Whenever an elder redirects a message to the section of another, that
section is strictly closer to the name than the elder's own in the order of `cmp_distance` exactly
when the elder knows a strictly closer section. A message that follows redirects of such elders never
reaches the same section twice. -/
theorem redirect_progress (measured : M.Measured distance) (H : History M.toSectionScheme) :
    (∀ (isSelfElder : Bool) (wireMsg : WireMsg M) (knowledge : NetworkKnowledge M.toSectionScheme)
      (update : SectionTreeUpdate M.toSectionScheme) (bounced : UsrMsgBytes), H.Reaches knowledge →
      checkForEntropy isSelfElder wireMsg knowledge = .ok (some (update, .redirect bounced)) →
      update.signedSap.sapPrefix ≠ knowledge.ourPrefix →
        (M.cmpDistance update.signedSap.sapPrefix knowledge.ourPrefix wireMsg.dst.name = .lt ↔
          knowledge.KnowsCloser wireMsg.dst.name)) ∧
    ∀ (name : XorName) (elders : List (NetworkKnowledge M.toSectionScheme)),
      (∀ elder ∈ elders, H.Reaches elder) → (∀ elder ∈ elders.dropLast, elder.KnowsCloser name) →
      elders.IsChain (RedirectsTo name) → (elders.map (·.ourPrefix)).Nodup := by
  refine ⟨fun _ _ _ _ _ reaches answered other =>
    (redirect_closer_iff reaches.follows measured answered other).1, ?_⟩
  intro name elders reaches closer chain
  have falls : elders.IsChain fun here there =>
      distance there.ourPrefix name < distance here.ourPrefix name := by
    induction elders with
    | nil => exact .nil
    | cons here rest ih =>
      cases rest with
      | nil => exact .singleton _
      | cons there rest =>
        obtain ⟨redirects, later⟩ := List.isChain_cons_cons.mp chain
        obtain ⟨wireMsg, update, bounced, rfl, answered, same, differs⟩ := redirects
        have other : update.signedSap.sapPrefix ≠ here.ourPrefix := same ▸ differs
        have step := redirect_closer_iff (reaches here List.mem_cons_self).follows measured answered other
        have nearer := step.2 (step.1.mpr (closer here List.mem_cons_self))
        rw [same] at nearer
        refine List.isChain_cons_cons.mpr ⟨nearer, ih (fun elder mem =>
          reaches elder (List.mem_cons_of_mem _ mem)) (fun elder mem =>
          closer elder (List.mem_cons_of_mem _ mem)) later⟩
  have pairwise : elders.Pairwise fun here there =>
      distance there.ourPrefix name < distance here.ourPrefix name := by
    have : IsTrans (NetworkKnowledge M.toSectionScheme) fun here there =>
        distance there.ourPrefix name < distance here.ourPrefix name :=
      ⟨fun _ _ _ first second => second.trans first⟩
    exact List.isChain_iff_pairwise.mp falls
  rw [List.Nodup, List.pairwise_map]
  refine pairwise.imp fun {here there} nearer same => ?_
  rw [same] at nearer
  exact Nat.lt_irrefl _ nearer

end History

/-! ## A sample history -/

/-- The sample tree with one more key `4` under `1`. -/
def sampleQuarterTree : SectionsDAG sampleKeys := SectionsDAG.sampleTree.attach 1 4 (sampleSig 1 4)

/-- The genesis section splits into the halves of keys `1` and `3`, and the first one into the quarters
of keys `2` and `4`. -/
def sampleQuarterBits : Nat → List Bool
  | 0 => []
  | 1 => [false]
  | 2 => [false, true]
  | 3 => [true]
  | _ => [false, false]

theorem sampleQuarterTree_distinct : sampleQuarterTree.Distinct :=
  SectionsDAG.sampleTree_distinct.insert rfl
    (SectionsDAG.verifyAndInsert_eq_ok.mpr ⟨by rfl, by rfl, rfl⟩)

theorem sampleQuarterTree_parentOf {key parent : Nat} (goes : sampleQuarterTree.parentOf key = some parent) :
    (key = 1 ∧ parent = 0) ∨ (key = 2 ∧ parent = 1) ∨ (key = 3 ∧ parent = 0) ∨
      (key = 4 ∧ parent = 1) := by
  have tidy := sampleQuarterTree_distinct.tidy
  have listed := tidy.mem_keys.mpr (tidy.hasKey_iff_parentOf.mpr (Or.inr (by rw [goes]; rfl)))
  have keys : sampleQuarterTree.keys = [0, 1, 2, 3, 4] := rfl
  rw [keys] at listed
  fin_cases listed
  · cases goes
  · exact Or.inl ⟨rfl, (Option.some.inj goes).symm⟩
  · exact Or.inr (Or.inl ⟨rfl, (Option.some.inj goes).symm⟩)
  · exact Or.inr (Or.inr (Or.inl ⟨rfl, (Option.some.inj goes).symm⟩))
  · exact Or.inr (Or.inr (Or.inr ⟨rfl, (Option.some.inj goes).symm⟩))

def sampleQuarterHistory : History sampleScheme where
  dag := sampleQuarterTree
  sap key := sampleSap key (sampleQuarterBits key)
  distinct := sampleQuarterTree_distinct
  sap_key _ := rfl
  sap_signed _ := by simp [sampleSap, SectionSigned.selfVerify, SectionSig.verify, sampleSig]
  sap_signer _ := rfl
  genesis_prefix := rfl
  child_prefix := by
    intro key parent goes
    obtain ⟨rfl, rfl⟩ | ⟨rfl, rfl⟩ | ⟨rfl, rfl⟩ | ⟨rfl, rfl⟩ := sampleQuarterTree_parentOf goes
    · exact Or.inr ⟨false, rfl⟩
    · exact Or.inr ⟨true, rfl⟩
    · exact Or.inr ⟨true, rfl⟩
    · exact Or.inr ⟨false, rfl⟩
  sibling_prefix := by
    intro key other parent goes goes' apart
    obtain ⟨rfl, rfl⟩ | ⟨rfl, rfl⟩ | ⟨rfl, rfl⟩ | ⟨rfl, rfl⟩ := sampleQuarterTree_parentOf goes <;>
    obtain ⟨rfl, same⟩ | ⟨rfl, same⟩ | ⟨rfl, same⟩ | ⟨rfl, same⟩ := sampleQuarterTree_parentOf goes' <;>
    first
      | exact absurd rfl apart
      | exact ⟨false, rfl, rfl⟩
      | exact ⟨true, rfl, rfl⟩
      | cases same

/-- Key `2` with its branch from the genesis key. -/
def sampleQuarter : SectionTreeUpdate sampleScheme where
  signedSap := sampleSap 2 [false, true]
  proofChain := SectionsDAG.sampleChain

/-- Key `4` with its branch from the genesis key. -/
def sampleOtherQuarter : SectionTreeUpdate sampleScheme where
  signedSap := sampleSap 4 [false, false]
  proofChain := ((SectionsDAG.new 0 : SectionsDAG sampleKeys).attach 0 1 (sampleSig 0 1)).attach 1 4
    (sampleSig 1 4)

theorem sampleQuarter_isUpdate : sampleQuarterHistory.IsUpdate sampleQuarter :=
  ⟨(0 : Nat), (2 : Nat), rfl, rfl⟩

theorem sampleOtherQuarter_isUpdate : sampleQuarterHistory.IsUpdate sampleOtherQuarter :=
  ⟨(0 : Nat), (4 : Nat), rfl, rfl⟩

theorem sampleHalf_isUpdate : sampleQuarterHistory.IsUpdate sampleSecondHalf :=
  ⟨(0 : Nat), (3 : Nat), rfl, rfl⟩

theorem length_sampleElderName (bits : List Bool) : (bits.takeD 256 false).length = 256 := List.takeD_length ..

def sampleKnowingElder (bits : List Bool) (updates : List (SectionTreeUpdate sampleScheme)) :
    NetworkKnowledge sampleScheme :=
  sampleKnowledge.run ⟨bits.takeD 256 false, length_sampleElderName bits⟩ updates

theorem sampleKnowingElder_reaches (bits : List Bool) {updates : List (SectionTreeUpdate sampleScheme)}
    (honest : ∀ update ∈ updates, update ∈ [sampleQuarter, sampleOtherQuarter, sampleSecondHalf]) :
    sampleQuarterHistory.Reaches (M := sampleMessages) (sampleKnowingElder bits updates) := by
  refine ⟨sampleGenesis, default, sampleKnowledge, _, [], updates, rfl, by simp, rfl, ?_, rfl⟩
  intro update mem
  have one := honest update mem
  simp only [List.mem_cons, List.not_mem_nil, or_false] at one
  obtain rfl | rfl | rfl := one
  · exact sampleQuarter_isUpdate
  · exact sampleOtherQuarter_isUpdate
  · exact sampleHalf_isUpdate

/-- The elder of section `01` that knows the section `1` alone. -/
def sampleQuarterElder : NetworkKnowledge sampleScheme :=
  sampleKnowingElder [false, true] [sampleQuarter, sampleSecondHalf]

/-- The elder of section `1` that knows the section `01` alone. -/
def sampleHalfElder : NetworkKnowledge sampleScheme := sampleKnowingElder [true] [sampleSecondHalf, sampleQuarter]

/-- The elder of section `01` that knows the section `00`. -/
def sampleAwareElder : NetworkKnowledge sampleScheme :=
  sampleKnowingElder [false, true] [sampleQuarter, sampleOtherQuarter]

/-- The elder of section `00`. -/
def sampleLastElder : NetworkKnowledge sampleScheme := sampleKnowingElder [false, false] [sampleOtherQuarter]

namespace History

/-- A message for a name of section `00` is redirected from `1` to `01` and from there to `00`. -/
theorem redirect_progress_sampleAwareElder :
    sampleScheme.cmpDistance sampleLastElder.ourPrefix sampleAwareElder.ourPrefix sampleName = .lt ∧
    ([sampleHalfElder, sampleAwareElder, sampleLastElder].map (·.ourPrefix)).Nodup := by
  have half : sampleQuarterHistory.Reaches (M := sampleMessages) sampleHalfElder :=
    sampleKnowingElder_reaches _ (by simp)
  have aware : sampleQuarterHistory.Reaches (M := sampleMessages) sampleAwareElder :=
    sampleKnowingElder_reaches _ (by simp)
  have last : sampleQuarterHistory.Reaches (M := sampleMessages) sampleLastElder :=
    sampleKnowingElder_reaches _ (by simp)
  have closer : NetworkKnowledge.KnowsCloser (M := sampleMessages) sampleAwareElder sampleName :=
    aware.follows.knowsCloser sampleScheme_measured (ExtTreeMap.mem_iff_contains.mpr rfl)
      (ExtTreeMap.mem_iff_contains.mpr (show sampleAwareElder.sectionTree.sections.contains
        ⟨[false, false]⟩ = true from rfl)) rfl rfl
  have closer' : NetworkKnowledge.KnowsCloser (M := sampleMessages) sampleHalfElder sampleName :=
    ⟨⟨[false, true]⟩, ExtTreeMap.mem_iff_contains.mpr rfl, by decide, rfl⟩
  obtain ⟨single, follows⟩ := redirect_progress (M := sampleMessages) sampleScheme_measured sampleQuarterHistory
  refine ⟨(single true sampleMsg sampleAwareElder sampleOtherQuarter ([], [], []) aware rfl
    (by decide)).mpr closer, follows sampleName _ ?_ ?_ ?_⟩
  · simp [half, aware, last]
  · simp [closer, closer']
  · refine .cons_cons ⟨sampleMsg, sampleQuarter, ([], [], []), rfl, rfl, rfl, by decide⟩
      (.cons_cons ⟨sampleMsg, sampleOtherQuarter, ([], [], []), rfl, rfl, rfl, by decide⟩ (.singleton _))

/-- A message for a name of section `00` goes back and forth between the sections `01` and `1`, and the
first of the two redirects leads away from it. -/
theorem redirect_back_and_forth : sampleQuarterHistory.Reaches (M := sampleMessages) sampleQuarterElder ∧
    sampleQuarterHistory.Reaches (M := sampleMessages) sampleHalfElder ∧
    RedirectsTo (M := sampleMessages) sampleName sampleQuarterElder sampleHalfElder ∧
    sampleScheme.cmpDistance sampleHalfElder.ourPrefix sampleQuarterElder.ourPrefix sampleName = .gt ∧
    RedirectsTo (M := sampleMessages) sampleName sampleHalfElder sampleQuarterElder := by
  refine ⟨sampleKnowingElder_reaches _ (by simp), sampleKnowingElder_reaches _ (by simp),
    ⟨sampleMsg, sampleSecondHalf, ([], [], []), rfl, rfl, rfl, by decide⟩, rfl,
    ⟨sampleMsg, sampleQuarter, ([], [], []), rfl, rfl, rfl, by decide⟩⟩

end History

end SafeNetwork
