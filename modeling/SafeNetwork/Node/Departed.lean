import SafeNetwork.Node.Elder

/-!
# Departed names

A name that a decision marked as left or relocated must not join again under the next few section
keys. The check is made by the membership, from what its own history has archived. A membership that is
built anew starts from the members of the SAP alone, and forgets a departed name that these do not list;
the archive that the network knowledge keeps is not asked. Where the members do list the departed names,
and the knowledge learns of no departure before the membership does, no departed name is accepted again.
-/

namespace SafeNetwork

open Std Consensus OrderedMap Forest

namespace Membership

variable {N : NodeScheme} {C : MemberRounds N} {before after : Membership C}

def departures (log : List (Decision N.sections)) : List XorName :=
  log.flatMap fun decision =>
    (decision.proposals.keys.filter (!·.state.isJoined)).map NodeState.name

theorem mem_archivedMembers_of_departed {name : XorName} (departed : name ∈ departures before.decisions) :
    name ∈ before.archivedMembers := by
  obtain ⟨decision, decided, marked⟩ := List.mem_flatMap.mp departed
  obtain ⟨nodeState, listed, rfl⟩ := List.mem_map.mp marked
  obtain ⟨proposed, leaves⟩ := List.mem_filter.mp listed
  rw [archivedMembers_eq, mem_archivedAfter]
  refine .inr ⟨decision, decided, nodeState, proposed, ?_, rfl⟩
  intro joined
  rw [joined] at leaves
  cases leaves

/-- A membership goes on as another: it keeps its group, what it started from and its decisions. -/
structure Continues (before after : Membership C) : Prop where
  numbered : Numbered after.history after.gen
  decisions : before.decisions <+: after.decisions
  bootstrap : after.bootstrapMembers = before.bootstrapMembers
  config : C.config after.consensus = C.config before.consensus

theorem Continues.mem_archivedMembers (continues : Continues before after) {name : XorName}
    (archived : name ∈ before.archivedMembers) : name ∈ after.archivedMembers := by
  rw [archivedMembers_eq] at archived ⊢
  rw [continues.bootstrap]
  exact archivedAfter_mono continues.decisions archived

theorem kept_call (before : Recorded C) (request : Call C) :
    (before.call request).membership.bootstrapMembers = before.membership.bootstrapMembers ∧
      C.config (before.call request).membership.consensus = C.config before.membership.consensus := by
  have given : ∀ {vote : C.SignedVote} {round : C.Round}, before.membership.Gives request vote round →
      C.config round = C.config before.membership.consensus := by
    intro vote round gives
    cases gives with
    | propose => exact C.config_castVote _ _
    | castVote => exact C.config_castVote _ _
    | handle => exact C.config_handleSignedVote _ _
  have outcome := called before request
  generalize before.call request = after at outcome
  cases outcome with
  | unchanged => exact ⟨rfl, rfl⟩
  | past => exact ⟨rfl, rfl⟩
  | pending gives => exact ⟨rfl, given gives⟩
  | decided gives => exact ⟨rfl, (C.config_start _).trans (given gives)⟩

theorem continues_run (numbered : Numbered before.history before.gen) (calls : List (Call C)) :
    Continues before (Runs.run Recorded.call ⟨before, [], before.decisions⟩ calls).membership := by
  have counted : Counted ⟨before, [], before.decisions⟩ := ⟨numbered, rfl⟩
  have kept : ∀ after, after = Runs.run Recorded.call ⟨before, [], before.decisions⟩ calls →
      after.membership.bootstrapMembers = before.bootstrapMembers ∧
        C.config after.membership.consensus = C.config before.consensus := by
    rintro after rfl
    refine Runs.run_induction (motive := fun after : Recorded C =>
      after.membership.bootstrapMembers = before.bootstrapMembers ∧
        C.config after.membership.consensus = C.config before.consensus) ⟨rfl, rfl⟩ ?_
    intro after kept request _
    obtain ⟨bootstrap, config⟩ := kept_call after request
    exact ⟨bootstrap.trans kept.1, config.trans kept.2⟩
  obtain ⟨bootstrap, config⟩ := kept _ rfl
  exact ⟨(counted.run calls).1.numbered, decisions_run counted calls, bootstrap, config⟩

end Membership

namespace Elder

variable {M : MemberScheme} {E : ElderScheme M} {self : Elder E} {event : Event E}
  {H : History M.sections}

/-! ## One event -/

inductive Outcome (self : Elder E) (event : Event E) : Option (Membership E.rounds) → Prop where
  | renewed {config : E.rounds.Config} (renews : self.renews event = true)
    (group : E.sectionKey (E.rounds.elders config) = (self.step event).knowledge.sectionKey) :
    Outcome self event
      (some (.fromElders config (self.step event).knowledge.signedSap.value.members))
  | none : Outcome self event .none
  | continued {before after : Membership E.rounds} (renews : self.renews event = false)
    (had : self.membership = some before)
    (continues : Numbered before.history before.gen → before.Continues after) :
    Outcome self event (some after)

theorem Outcome.untouched (renews : self.renews event = false)
    (same : (self.step event).membership = self.membership) : Outcome self event (self.step event).membership := by
  rw [same]
  cases had : self.membership with
  | none => exact .none
  | some membership =>
    exact .continued renews had fun numbered => membership.continues_run numbered []

theorem updateOnSapChange_knowledge (self : Elder E) :
    self.updateOnSapChange.knowledge = self.knowledge ∧ self.updateOnSapChange.name = self.name := by
  rw [updateOnSapChange]
  split
  · split
    · rw [initializeMembership]
      split <;> exact ⟨rfl, rfl⟩
    · exact ⟨rfl, rfl⟩
  · exact ⟨rfl, rfl⟩

theorem publicKey_of_keyShare {publicKey : M.PublicKey} {key : E.KeyShare}
    (found : self.keyShare publicKey = some key) : E.publicKey key = publicKey := by
  have same := List.find?_some found
  exact eq_of_beq same

theorem handleMembershipVotes_none (sapPrefix : Prefix) (votes : List E.rounds.SignedVote) :
    (Membership.handleMembershipVotes (C := E.rounds) sapPrefix none votes).2 = none := by
  induction votes with
  | nil => rfl
  | cons vote rest ih => exact ih

theorem Outcome.of_updateOnSapChange {changed : Elder E} (kept : changed.membership = self.membership)
    (stepped : self.step event = changed.updateOnSapChange)
    (renewal : self.renews event = (changed.knowledge.isElder changed.name &&
      (changed.keyShare changed.knowledge.sectionKey).isSome && changed.lacksMembership)) :
    Outcome self event (self.step event).membership := by
  have known := changed.updateOnSapChange_knowledge.1
  by_cases elder : changed.knowledge.isElder changed.name = true
  · cases share : changed.keyShare changed.knowledge.sectionKey with
    | none =>
      refine .untouched (by rw [renewal, share]; simp) ?_
      rw [stepped, updateOnSapChange, if_pos elder, share, kept]
    | some key =>
      by_cases lacks : changed.lacksMembership = true
      · have membership : changed.updateOnSapChange.membership = some (.fromElders
            (E.config key changed.knowledge.signedSap.value.elders.toList.length)
            (self.step event).knowledge.signedSap.value.members) := by
          rw [stepped, known, updateOnSapChange, if_pos elder, share]
          simp only [initializeMembership, if_pos lacks]
        rw [stepped, membership]
        refine .renewed (by rw [renewal, elder, share, lacks]; rfl) ?_
        rw [E.sectionKey_config, stepped, known]
        exact publicKey_of_keyShare share
      · refine .untouched (by rw [renewal, Bool.eq_false_iff.mpr lacks, Bool.and_false]) ?_
        rw [stepped, updateOnSapChange, if_pos elder, share, ← kept]
        simp only [initializeMembership, if_neg lacks]
  · rw [stepped, updateOnSapChange, if_neg elder]
    exact .none

theorem outcome (self : Elder E) (event : Event E) : Outcome self event (self.step event).membership := by
  cases event with
  | keyShare share => exact .untouched rfl rfl
  | membershipVotes signedVotes =>
    cases had : self.membership with
    | none =>
      rw [step, had, handleMembershipVotes_none]
      exact .none
    | some before =>
      obtain ⟨calls, -, result⟩ := Membership.handleMembershipVotes_run
        ⟨before, [], before.decisions⟩ self.knowledge.ourPrefix signedVotes
      rw [step, had, result]
      exact .continued rfl had fun numbered => Membership.continues_run numbered calls
  | propose nodeState =>
    cases had : self.membership with
    | none =>
      rw [step, had]
      exact .none
    | some before =>
      rw [step, had]
      exact .continued rfl had fun numbered =>
        Membership.continues_run numbered [.propose nodeState self.knowledge.ourPrefix]
  | membershipDecision decision => exact .untouched rfl rfl
  | sapUpdate update => exact .untouched rfl rfl
  | antiEntropy update sectionDecisions =>
    rcases learnt : self.knowledge.updateSapKnowledgeIfValid update self.name with
      ⟨error | updated | updated, knowledge⟩
    · exact .untouched (by simp [renews, learnt]) (by simp [step, handleAntiEntropyMsg, learnt])
    · refine .untouched (by simp [renews, learnt]) ?_
      simp only [step, handleAntiEntropyMsg, learnt]
      split <;> rfl
    · generalize informed : ({ self with
        knowledge := knowledge.updateSectionMemberKnowledge sectionDecisions } : Elder E) = changed
      have stepped : self.step (.antiEntropy update sectionDecisions) = changed.updateOnSapChange := by
        simp only [step, handleAntiEntropyMsg, learnt, informed]
      have same : changed = { self with knowledge := changed.knowledge } := by rw [← informed]
      refine .of_updateOnSapChange (by rw [same]) stepped ?_
      rw [renews, learnt]
      dsimp only
      rw [stepped, changed.updateOnSapChange_knowledge.1, ← same]
      rw [same]
      rfl

def learnt (self : Elder E) (event : Event E) : NetworkKnowledge M.sections :=
  match event.update with
  | some update => (self.knowledge.updateSapKnowledgeIfValid update self.name).2
  | none => self.knowledge

theorem step_knowledge (self : Elder E) (event : Event E) :
    (self.step event).knowledge.sectionTree = (self.learnt event).sectionTree ∧
      (self.step event).knowledge.signedSap = (self.learnt event).signedSap ∧
      (self.step event).name = self.name := by
  cases event with
  | antiEntropy update sectionDecisions =>
    simp only [step, handleAntiEntropyMsg, learnt, Event.update]
    rcases self.knowledge.updateSapKnowledgeIfValid update self.name with
      ⟨error | updated | updated, knowledge⟩
    · exact ⟨rfl, rfl, rfl⟩
    · cases sectionDecisions <;> dsimp only <;> split <;> exact ⟨rfl, rfl, rfl⟩
    · dsimp only
      generalize changes : ({ self with
        knowledge := knowledge.updateSectionMemberKnowledge sectionDecisions } : Elder E) = changed
      obtain ⟨known, named⟩ := changed.updateOnSapChange_knowledge
      rw [known, named, ← changes]
      cases sectionDecisions <;> exact ⟨rfl, rfl, rfl⟩
  | _ => exact ⟨rfl, rfl, rfl⟩

/-- The knowledge of an elder is in step with a history, for a prefix of its own name. -/
structure Located (H : History M.sections) (elder : Elder E) : Prop where
  follows : H.Follows elder.knowledge
  ours : elder.knowledge.ourPrefix.matchesName elder.name = true

theorem Located.step (located : Located H self) (honest : ∀ update ∈ event.update, H.IsUpdate update) :
    Located H (self.step event) ∧
      Above H.dag.parentOf self.knowledge.sectionKey (self.step event).knowledge.sectionKey := by
  obtain ⟨tree, sap, named⟩ := self.step_knowledge event
  have learns : H.Follows (self.learnt event) ∧
      (self.learnt event).ourPrefix.matchesName self.name = true ∧
      Above H.dag.parentOf self.knowledge.sectionKey (self.learnt event).sectionKey := by
    rw [learnt]
    cases brought : event.update with
    | none => exact ⟨located.follows, located.ours, .refl⟩
    | some update =>
      have isUpdate := honest update brought
      obtain ⟨down, ours⟩ := located.follows.above_step isUpdate located.ours
      exact ⟨located.follows.step isUpdate self.name, ours, down⟩
  obtain ⟨follows, ours, down⟩ := learns
  refine ⟨⟨⟨tree ▸ follows.synced, ?_⟩, ?_⟩, ?_⟩
  · rw [tree, sap]
    exact follows.own
  · rw [NetworkKnowledge.ourPrefix, sap, named]
    exact ours
  · rw [NetworkKnowledge.sectionKey, NetworkKnowledge.sectionKey, sap]
    exact down

/-! ## Departures -/

/-- The names that the decisions of the knowledge mark as left or relocated, with our section key. -/
def knownDepartures (self : Elder E) : List (XorName × M.PublicKey) :=
  (Membership.departures self.knowledge.sectionMembers.decisions).map (·, self.knowledge.sectionKey)

def decidedDepartures (self : Elder E) : List (XorName × M.PublicKey) :=
  self.membership.toList.flatMap fun membership =>
    (Membership.departures membership.decisions).map (·, membershipKey E membership)

/-- An elder with a record of the departures it has seen decided. -/
structure Watched (E : ElderScheme M) where
  elder : Elder E
  /-- The names of nodes that left or were relocated, with the section key of the decision. -/
  departed : List (XorName × M.PublicKey)

namespace Watched

def step (before : Watched E) (event : Event E) : Watched E :=
  let elder := before.elder.step event
  ⟨elder, before.departed ++ elder.knownDepartures ++ elder.decidedDepartures⟩

/-- An event does not leave the membership ignorant of a departure: the update it brings is one of the
history, a membership that is built anew finds every departed name of the latest keys among the members
of the SAP, and the knowledge learns of a departure only after a membership that goes on has archived
the name. -/
structure Told (H : History M.sections) (before : Watched E) (event : Event E) : Prop where
  honest : ∀ update ∈ event.update, H.IsUpdate update
  listed : before.elder.renews event = true →
    ∀ name key, (name, key) ∈ before.departed ++ (before.elder.step event).knownDepartures →
      key ∈ (before.elder.step event).knowledge.latestSectionKeys →
      (before.elder.step event).knowledge.ourPrefix.matchesName name = true →
        ∃ nodeState ∈ (before.elder.step event).knowledge.signedSap.value.members,
          nodeState.state ≠ .joined ∧ nodeState.name = name
  archived : before.elder.renews event = false → (before.elder.step event).membership.isSome = true →
    ∀ name key, (name, key) ∈ (before.elder.step event).knownDepartures →
      (name, key) ∉ before.departed →
        ∀ membership ∈ before.elder.membership, name ∈ membership.archivedMembers

/-- What holds as long as the membership is told of departures. -/
structure Remembers (H : History M.sections) (after : Watched E) : Prop where
  located : Located H after.elder
  numbered : ∀ membership ∈ after.elder.membership, Numbered membership.history membership.gen
  group : ∀ membership ∈ after.elder.membership,
    Above H.dag.parentOf (membershipKey E membership) after.elder.knowledge.sectionKey
  above : ∀ name key, (name, key) ∈ after.departed →
    Above H.dag.parentOf key after.elder.knowledge.sectionKey
  archived : ∀ membership ∈ after.elder.membership, ∀ name key, (name, key) ∈ after.departed →
    key ∈ after.elder.knowledge.latestSectionKeys →
    after.elder.knowledge.ourPrefix.matchesName name = true → name ∈ membership.archivedMembers

variable {before : Watched E} {name : XorName} {key : M.PublicKey}

theorem key_of_knownDepartures (known : (name, key) ∈ self.knownDepartures) : key = self.knowledge.sectionKey := by
  obtain ⟨_, _, same⟩ := List.mem_map.mp known
  exact (Prod.mk.inj same).2.symm

theorem of_decidedDepartures (decided : (name, key) ∈ self.decidedDepartures) :
    ∃ membership, self.membership = some membership ∧ key = membershipKey E membership ∧
      name ∈ membership.archivedMembers := by
  obtain ⟨membership, had, marked⟩ := List.mem_flatMap.mp decided
  obtain ⟨_, departed, same⟩ := List.mem_map.mp marked
  obtain ⟨rfl, rfl⟩ := Prod.mk.inj same
  exact ⟨membership, Option.mem_toList.mp had, rfl, Membership.mem_archivedMembers_of_departed departed⟩

theorem Remembers.step (remembers : Remembers H before) (told : Told H before event) :
    Remembers H (before.step event) := by
  obtain ⟨located, down⟩ := remembers.located.step told.honest
  -- What the event does to the membership, for its keys and counts.
  have memberships : ∀ membership ∈ (before.elder.step event).membership,
      Numbered membership.history membership.gen ∧ Above H.dag.parentOf (membershipKey E membership)
        (before.elder.step event).knowledge.sectionKey := by
    intro membership has
    have outcome := before.elder.outcome event
    rw [has] at outcome
    cases outcome with
    | @renewed config renews group =>
      refine ⟨Numbered.empty, ?_⟩
      have key : membershipKey E (.fromElders config
          (before.elder.step event).knowledge.signedSap.value.members) =
            (before.elder.step event).knowledge.sectionKey := by
        rw [membershipKey, Membership.fromElders, E.rounds.config_start, group]
      rw [key]
    | continued renews had continues =>
      have goesOn := continues (remembers.numbered _ had)
      refine ⟨goesOn.numbered, ?_⟩
      rw [membershipKey, goesOn.config]
      exact (remembers.group _ had).trans down
  have above : ∀ name key, (name, key) ∈ (before.step event).departed →
      Above H.dag.parentOf key (before.elder.step event).knowledge.sectionKey := by
    intro name key departed
    obtain known | decided := List.mem_append.mp departed
    · obtain old | known := List.mem_append.mp known
      · exact (remembers.above name key old).trans down
      · rw [key_of_knownDepartures known]
    · obtain ⟨membership, has, rfl, -⟩ := of_decidedDepartures decided
      exact (memberships membership has).2
  refine ⟨located, fun membership has => (memberships membership has).1,
    fun membership has => (memberships membership has).2, above, ?_⟩
  intro membership has name key departed latest ours
  obtain known | decided := List.mem_append.mp departed
  · have outcome := before.elder.outcome event
    have some : (before.elder.step event).membership = some membership := has
    rw [some] at outcome
    cases outcome with
    | renewed renews group =>
      obtain ⟨nodeState, listed, leaves, named⟩ := told.listed renews name key known latest ours
      rw [Membership.archivedMembers_eq, Membership.mem_archivedAfter]
      exact .inl ⟨nodeState, listed, leaves, named⟩
    | continued renews had continues =>
      refine (continues (remembers.numbered _ had)).mem_archivedMembers ?_
      by_cases old : (name, key) ∈ before.departed
      · have earlier := remembers.located.follows.latest_of_later located.follows down
          (remembers.above name key old) latest
        exact remembers.archived _ had name key old earlier
          (remembers.located.follows.matchesName_of_later located.follows down ours)
      · have new := (List.mem_append.mp known).resolve_left old
        exact told.archived renews (by rw [some]; rfl) name key new old _ had
  · obtain ⟨other, had, -, archived⟩ := of_decidedDepartures decided
    obtain rfl := Option.some.inj (had.symm.trans has)
    exact archived

/-- A departed name does not come back: in any run of a new elder throughout which its membership is told
of departures, no vote is valid that lets a name join which departed under one of the latest keys. -/
theorem departed_not_rejoined (H : History M.sections) (start : Elder E) (located : Located H start)
    (fresh : ∀ membership ∈ start.membership, ∃ config,
      membership = .fromElders config start.knowledge.signedSap.value.members ∧
        E.sectionKey (E.rounds.elders config) = start.knowledge.sectionKey)
    (events : List (Event E)) (told : Runs.Throughout step (Told H) ⟨start, []⟩ events) :
    let after := Runs.run step ⟨start, []⟩ events
    ∀ membership ∈ after.elder.membership, ∀ name key, (name, key) ∈ after.departed →
      key ∈ after.elder.knowledge.latestSectionKeys →
      ∀ vote, membership.validateProposals vote after.elder.knowledge.ourPrefix = .ok () →
        ∀ proposal ∈ E.rounds.proposals vote, proposal.state = .joined → proposal.name ≠ name := by
  intro after
  have first : Remembers H (⟨start, []⟩ : Watched E) := by
    refine ⟨located, ?_, ?_, by simp, by simp⟩
    · intro membership has
      obtain ⟨config, rfl, -⟩ := fresh membership has
      exact Numbered.empty
    · intro membership has
      obtain ⟨config, rfl, group⟩ := fresh membership has
      rw [membershipKey, Membership.fromElders, E.rounds.config_start, group]
  have remembers : Remembers H after :=
    told.induction first fun _ _ remembers told => remembers.step told
  rintro membership has name key departed latest vote valid proposal proposed joins rfl
  obtain ⟨_, _, _, members, _, checked⟩ := Membership.validateProposals_ok.mp valid
  obtain ⟨ours, _, _, _, unknown⟩ :=
    (NodeScheme.validateNodeState_joined joins).mp (checked proposal proposed)
  exact unknown (remembers.archived membership has proposal.name key departed latest ours)

end Watched

/-! ## A sample elder -/

abbrev sampleElders : ElderScheme sampleNodes where
  rounds := sampleRounds
  KeyShare := Nat
  publicKey key := key
  config key _ := key
  sectionKey key := key
  sectionKey_config _ _ := rfl

def sampleElderSap (key : Nat) : sampleNodes.sections.SignedSap where
  value := ⟨⟨sampleBits key⟩, key, .ofList [sampleNodeId [] 0], ∅, 0⟩
  sig := ⟨key, sampleSig key key⟩

def sampleElderHistory : History sampleNodes.sections where
  dag := SectionsDAG.sampleTree
  sap := sampleElderSap
  distinct := SectionsDAG.sampleTree_distinct
  sap_key _ := rfl
  sap_signed _ := by simp [sampleElderSap, SectionSigned.selfVerify, SectionSig.verify, sampleSig]
  sap_signer _ := rfl
  genesis_prefix := rfl
  child_prefix := sampleHistory.child_prefix
  sibling_prefix := sampleHistory.sibling_prefix

/-- The elder of the genesis section, with key shares of the genesis section and of key `2`. -/
def sampleElder : Elder sampleElders where
  name := sampleNodeName []
  knowledge := ⟨sampleElderSap 0, {},
    ⟨(∅ : ExtTreeMap Prefix sampleNodes.sections.SignedSap).insert default (sampleElderSap 0),
      .new (0 : Nat)⟩⟩
  keyShares := [(2 : Nat), (0 : Nat)]
  membership := some (.fromElders (0 : Nat) ∅)

theorem sampleElder_located : Located sampleElderHistory sampleElder where
  follows := ⟨History.synced_new rfl, (0 : Nat), rfl, rfl⟩
  ours := rfl

def sampleVote (key gen : Nat) (nodes : List sampleNodes.State) : sampleRounds.SignedVote :=
  ⟨key, gen, nodes⟩

def sampleDeparture : List (Event sampleElders) :=
  [.membershipVotes [sampleVote 0 1 [.joined (sampleNodeId [false, true] 1) none]],
    .membershipVotes [sampleVote 0 2 [.left (sampleNodeId [false, true] 1) none]]]

/-- The SAP of key `2`, with the chain from the genesis key. -/
def sampleElderChange : SectionTreeUpdate sampleNodes.sections where
  signedSap := sampleElderSap 2
  proofChain := SectionsDAG.sampleChain

namespace Watched

theorem departed_not_rejoined_sampleDeparture : (sampleNodeName [false, true], (0 : Nat)) ∈
        (Runs.run step ⟨sampleElder, []⟩ sampleDeparture).departed ∧
      ∀ membership ∈ (Runs.run step ⟨sampleElder, []⟩ sampleDeparture).elder.membership,
        ∀ vote, membership.validateProposals vote default = .ok () →
          ∀ proposal ∈ sampleRounds.proposals vote, proposal.state = .joined →
            proposal.name ≠ sampleNodeName [false, true] := by
  have departed : (sampleNodeName [false, true], (0 : Nat)) ∈
      (Runs.run step ⟨sampleElder, []⟩ sampleDeparture).departed := by decide +kernel
  have latest : (0 : Nat) ∈
      (Runs.run step ⟨sampleElder, []⟩ sampleDeparture).elder.knowledge.latestSectionKeys := by
    decide +kernel
  have told : Runs.Throughout step (Told sampleElderHistory) ⟨sampleElder, []⟩ sampleDeparture := by
    refine ⟨⟨by simp [Event.update], ?_, ?_⟩, ⟨by simp [Event.update], ?_, ?_⟩, trivial⟩
    · intro renews
      cases renews
    · intro _ _ name key known
      cases known
    · intro renews
      cases renews
    · intro _ _ name key known
      cases known
  refine ⟨departed, fun membership has vote => ?_⟩
  exact departed_not_rejoined sampleElderHistory sampleElder sampleElder_located
    (fun _ has => ⟨(0 : Nat), (Option.some.inj has).symm, rfl⟩) sampleDeparture told membership has _
    (0 : Nat) departed latest vote

/-- The node that left joins again after the elders changed: the SAP of key `2` does not list it, so that
the new membership takes the vote. -/
theorem departed_rejoins_after_elder_change : sampleElderHistory.IsUpdate sampleElderChange ∧
      (sampleNodeName [false, true], (0 : Nat)) ∈ (Runs.run step ⟨sampleElder, []⟩
          (sampleDeparture ++ [.antiEntropy sampleElderChange none])).departed ∧
      (0 : Nat) ∈ (Runs.run step ⟨sampleElder, []⟩ (sampleDeparture ++
        [.antiEntropy sampleElderChange none])).elder.knowledge.latestSectionKeys ∧
      ∃ membership ∈ (Runs.run step ⟨sampleElder, []⟩
          (sampleDeparture ++ [.antiEntropy sampleElderChange none])).elder.membership, (membership.validateProposals
          (sampleVote 2 1 [.joined (sampleNodeId [false, true] 1) none])
          (Runs.run step ⟨sampleElder, []⟩ (sampleDeparture ++
            [.antiEntropy sampleElderChange none])).elder.knowledge.ourPrefix).isOk = true := by
  refine ⟨⟨(0 : Nat), (2 : Nat), rfl, rfl⟩, by decide +kernel, by decide +kernel, ?_⟩
  have accepted : (Runs.run step ⟨sampleElder, []⟩
      (sampleDeparture ++ [.antiEntropy sampleElderChange none])).elder.membership.any
        (fun membership => (membership.validateProposals
          (sampleVote 2 1 [.joined (sampleNodeId [false, true] 1) none])
          (Runs.run step ⟨sampleElder, []⟩ (sampleDeparture ++
            [.antiEntropy sampleElderChange none])).elder.knowledge.ourPrefix).isOk) = true := by
    decide +kernel
  generalize Runs.run step ⟨sampleElder, []⟩
    (sampleDeparture ++ [.antiEntropy sampleElderChange none]) = after at accepted ⊢
  cases has : after.elder.membership with
  | none =>
    rw [has] at accepted
    cases accepted
  | some membership =>
    rw [has] at accepted
    exact ⟨membership, rfl, accepted⟩

end Watched

end Elder

end SafeNetwork
