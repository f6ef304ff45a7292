import SafeNetwork.Node.Handover

/-!
# Handover votes

`messaging/handover.rs`: an elder handles the votes of other elders on the next SAP, and announces the
outcome when consensus is reached for the first time. The candidates in a vote are checked, but what the
check returns is discarded, so that a vote is handled whatever it proposes.
-/

namespace SafeNetwork

open Std Consensus NetworkKnowledge

/-- The part of `MyNode` that its handover depends on. -/
structure HandoverNode (X : HandoverScheme) where
  knowledge : NetworkKnowledge X.sections
  handoverVoting : Option (Handover X)

inductive HandoverCmd (X : HandoverScheme) where
  /-- Send `HandoverVotes` of one vote to the elders. -/
  | broadcastHandoverVoteMsg (signedVote : X.rounds.SignedVote)
  /-- What `MyNode::broadcast_handover_completed` sends for a candidate. -/
  | broadcastHandoverCompleted (candidate : SapCandidate X.toNodeScheme)

namespace Handover

variable {X : HandoverScheme} {before : Handover X} {allowed : List (SapCandidate X.toNodeScheme)} {candidate : SapCandidate X.toNodeScheme}

def Within (after : Handover X) (allowed : List (SapCandidate X.toNodeScheme)) : Prop :=
  ∃ config votes, Given X.rounds config votes after.consensus ∧
    ∀ vote ∈ votes, ∀ candidate ∈ X.rounds.proposals vote, candidate ∈ allowed

theorem Within.start (config : X.rounds.Config) : (fromElders config).Within allowed :=
  ⟨config, [], .start, by simp⟩

theorem Within.mono (within : before.Within allowed) (more : List (SapCandidate X.toNodeScheme)) :
    before.Within (allowed ++ more) := by
  obtain ⟨config, votes, given, voted⟩ := within
  exact ⟨config, votes, given, fun vote mem candidate proposed =>
    List.mem_append_left more (voted vote mem candidate proposed)⟩

theorem Within.handleSignedVote (within : before.Within allowed) {vote : X.rounds.SignedVote}
    (voted : ∀ candidate ∈ X.rounds.proposals vote, candidate ∈ allowed) :
    (before.handleSignedVote vote).2.Within allowed := by
  obtain ⟨config, votes, given, earlier⟩ := within
  rw [Handover.handleSignedVote]
  split
  · rw [handleOutdatedSignedVote]
    split
    · exact ⟨config, votes, given, earlier⟩
    · exact ⟨config, votes, given, earlier⟩
  · exact ⟨config, votes, given, earlier⟩
  · exact ⟨config, vote :: votes, given.handle vote, List.forall_mem_cons.mpr ⟨voted, earlier⟩⟩

theorem Within.handleEmptySetDecision (within : before.Within allowed) :
    before.handleEmptySetDecision.Within allowed := by
  rw [Handover.handleEmptySetDecision]
  split
  · split
    · exact ⟨_, [], .start, by simp⟩
    · exact within
  · exact within

theorem Within.propose (signsProposal : SignsProposal X.rounds) (within : before.Within allowed) (mem : candidate ∈ allowed) :
    (before.propose candidate).2.Within allowed := by
  obtain ⟨config, votes, given, earlier⟩ := within
  rw [Handover.propose]
  split
  · exact ⟨config, votes, given, earlier⟩
  · cases signed : X.rounds.signProposal before.consensus before.gen candidate with
    | error => exact ⟨config, votes, given, earlier⟩
    | ok vote =>
      have voted : ∀ other ∈ X.rounds.proposals vote, other ∈ allowed := by
        rw [signsProposal _ _ _ _ signed]
        simpa using mem
      have casts : (before.castVote vote).2.Within allowed := by
        refine ⟨config, vote :: votes, ?_, List.forall_mem_cons.mpr ⟨voted, earlier⟩⟩
        have given := given.cast vote
        rw [castVote]
        rcases result : X.rounds.castVote before.consensus vote with ⟨_ | _, round⟩
        · rwa [result] at given
        · rwa [result] at given
      dsimp only
      split
      · exact casts
      · exact ⟨config, votes, given, earlier⟩

theorem Within.consensusValue
    (decidesProposals : DecidesProposals X.rounds fun decision => decision.proposals.map (·.1))
    (within : before.Within allowed) (value : before.consensusValue = some candidate) : candidate ∈ allowed := by
  obtain ⟨config, votes, given, voted⟩ := within
  rw [Handover.consensusValue] at value
  cases decides : X.rounds.decision before.consensus with
  | none => simp [decides] at value
  | some decision =>
    rw [decides] at value
    dsimp only at value
    have mem : candidate ∈ decision.proposals.map (·.1) := by
      rw [← List.head?_map] at value
      exact List.mem_of_mem_head? value
    obtain ⟨vote, given', proposed⟩ := decidesProposals _ _ _ _ given decides candidate mem
    exact voted vote given' candidate proposed

end Handover

namespace HandoverNode

variable {X : HandoverScheme}

def handleVote (handoverState : Handover X) (signedVote : X.rounds.SignedVote) :
    Except ElderError (List (HandoverCmd X)) × Handover X :=
  match handoverState.handleSignedVote signedVote with
  | (.ok (.broadcast signedVote), state) => (.ok [.broadcastHandoverVoteMsg signedVote], state)
  | (.ok .waitingForMoreVotes, state) => (.ok [], state)
  | (.error .requestAntiEntropy, state) => (.error (.requestHandoverAntiEntropy state.gen), state)
  | (.error _, state) => (.ok [], state)

/-- `MyNode::check_signed_vote_saps` — the results of the checks are not looked at. -/
def checkSignedVoteSaps (self : HandoverNode X) (signedVote : X.rounds.SignedVote) :
    Except ElderError Unit :=
  let _ := (X.rounds.proposals signedVote).map self.knowledge.checkSapCandidate
  .ok ()

def handleHandoverVote (self : HandoverNode X) (signedVote : X.rounds.SignedVote) :
    Except ElderError (List (HandoverCmd X)) × HandoverNode X :=
  match self.checkSignedVoteSaps signedVote with
  | .error error => (.error error, self)
  | .ok () =>
    match self.handoverVoting with
    | some handoverState =>
      let hadConsensusValue := handoverState.consensusValue.isSome
      match handleVote handoverState signedVote with
      | (.error error, _) => (.error error, self)
      | (.ok cmds, state) =>
        let state := state.handleEmptySetDecision
        -- The outcome is announced the first time that consensus is reached.
        let completed := if hadConsensusValue then [] else
          state.consensusValue.toList.map HandoverCmd.broadcastHandoverCompleted
        (.ok (cmds ++ completed), { self with handoverVoting := some state })
    | none => (.ok [], self)

def proposeHandoverConsensus (self : HandoverNode X) (sapCandidates : SapCandidate X.toNodeScheme) :
    Except ElderError (List (HandoverCmd X)) × HandoverNode X :=
  match self.handoverVoting with
  | some handoverVotingState =>
    match handoverVotingState.propose sapCandidates with
    | (.error _, _) => (.error .handover, self)
    | (.ok vote, state) =>
      let completed := if state.consensusValue.isSome then
        [.broadcastHandoverCompleted sapCandidates] else []
      (.ok (.broadcastHandoverVoteMsg vote :: completed), { self with handoverVoting := some state })
  | none => (.ok [], self)

/-! ## Runs -/

inductive Event (X : HandoverScheme) where
  | vote (signedVote : X.rounds.SignedVote)
  | propose (candidate : SapCandidate X.toNodeScheme)
  | learn (knowledge : NetworkKnowledge X.sections)
  /-- The handover is set up for a new SAP, or cleared when we are no elder any more. -/
  | renew (config : Option X.rounds.Config)

/-- The candidates among some commands whose handover is announced as completed. -/
def completions (cmds : List (HandoverCmd X)) : List (SapCandidate X.toNodeScheme) :=
  cmds.flatMap fun
    | .broadcastHandoverVoteMsg _ => []
    | .broadcastHandoverCompleted candidate => [candidate]

structure Recorded (X : HandoverScheme) where
  node : HandoverNode X
  /-- The candidates that passed `check_sap_candidate` when they were voted on or proposed. -/
  passed : List (SapCandidate X.toNodeScheme)
  /-- The candidates announced as completed out of `handle_handover_vote`. -/
  completed : List (SapCandidate X.toNodeScheme)

namespace Recorded

def passing (before : Recorded X) (candidates : List (SapCandidate X.toNodeScheme)) :
    List (SapCandidate X.toNodeScheme) :=
  candidates.filter fun candidate => (before.node.knowledge.checkSapCandidate candidate).isOk

def step (before : Recorded X) : Event X → Recorded X
  | .vote signedVote =>
    let (result, node) := before.node.handleHandoverVote signedVote
    ⟨node, before.passed ++ before.passing (X.rounds.proposals signedVote),
      before.completed ++ completions (result.toOption.getD [])⟩
  | .propose candidate =>
    { before with
      node := (before.node.proposeHandoverConsensus candidate).2
      passed := before.passed ++ before.passing [candidate] }
  | .learn knowledge => { before with node := { before.node with knowledge } }
  | .renew config =>
    { before with node := { before.node with handoverVoting := config.map .fromElders } }

def Vetted (before : Recorded X) : Event X → Prop
  | .vote signedVote => ∀ candidate ∈ X.rounds.proposals signedVote,
      before.node.knowledge.checkSapCandidate candidate = .ok ()
  | .propose candidate => before.node.knowledge.checkSapCandidate candidate = .ok ()
  | .learn _ => True
  | .renew _ => True

variable {before : Recorded X}

/-- The candidates that are voted on or completed have passed the check. -/
structure Sound (after : Recorded X) : Prop where
  voting : ∀ handover, after.node.handoverVoting = some handover → handover.Within after.passed
  completed : ∀ candidate ∈ after.completed, candidate ∈ after.passed

theorem mem_passing {candidates : List (SapCandidate X.toNodeScheme)}
    (passes : ∀ candidate ∈ candidates, before.node.knowledge.checkSapCandidate candidate = .ok ())
    {candidate : SapCandidate X.toNodeScheme} (mem : candidate ∈ candidates) :
    candidate ∈ before.passing candidates :=
  List.mem_filter.mpr ⟨mem, by rw [passes candidate mem]; rfl⟩

end Recorded

/-! ## What passes the check -/

section

variable {self : HandoverNode X} {allowed : List (SapCandidate X.toNodeScheme)}

theorem handleVote_state (handover : Handover X) (vote : X.rounds.SignedVote) :
    (handleVote handover vote).2 = (handover.handleSignedVote vote).2 := by
  rw [handleVote]
  split <;> rename_i result <;> rw [result]

theorem handleVote_completions {handover : Handover X} {vote : X.rounds.SignedVote}
    {cmds : List (HandoverCmd X)} (handled : (handleVote handover vote).1 = .ok cmds) : completions cmds = [] := by
  rw [handleVote] at handled
  split at handled
  · obtain rfl := Except.ok.inj handled
    rfl
  · obtain rfl := Except.ok.inj handled
    rfl
  · simp at handled
  · obtain rfl := Except.ok.inj handled
    rfl

/-- When a vote on allowed candidates is handled, the handover stays within them, and what is announced
is one of them. -/
theorem handleHandoverVote_within
    (decidesProposals : DecidesProposals X.rounds fun decision => decision.proposals.map (·.1))
    (voting : ∀ handover, self.handoverVoting = some handover → handover.Within allowed) {vote : X.rounds.SignedVote}
    (voted : ∀ candidate ∈ X.rounds.proposals vote, candidate ∈ allowed) :
    (∀ handover, (self.handleHandoverVote vote).2.handoverVoting = some handover → handover.Within allowed) ∧
    ∀ candidate ∈ completions ((self.handleHandoverVote vote).1.toOption.getD []), candidate ∈ allowed := by
  cases current : self.handoverVoting with
  | none => simp [handleHandoverVote, checkSignedVoteSaps, current, Except.toOption, completions]
  | some handover =>
    have within := (voting handover current).handleSignedVote voted
    rw [← handleVote_state] at within
    rcases handled : handleVote handover vote with ⟨error | cmds, state⟩
    · simp [handleHandoverVote, checkSignedVoteSaps, current, handled, Except.toOption, completions,
        voting handover current]
    · rw [handled] at within
      have quiet : completions cmds = [] := handleVote_completions (by rw [handled])
      have after := within.handleEmptySetDecision
      simp only [handleHandoverVote, checkSignedVoteSaps, current, handled, Except.toOption,
        Option.getD_some]
      refine ⟨?_, ?_⟩
      · rintro _ ⟨⟩
        exact after
      · intro candidate mem
        rw [completions, List.flatMap_append, ← completions, quiet, List.nil_append] at mem
        split at mem
        · simp at mem
        · refine after.consensusValue decidesProposals ?_
          cases value : state.handleEmptySetDecision.consensusValue with
          | none => simp [value] at mem
          | some chosen =>
            simp only [value, Option.toList_some, List.map_cons, List.map_nil, List.flatMap_cons,
              List.flatMap_nil, List.append_nil, List.mem_singleton] at mem
            rw [mem]

theorem proposeHandoverConsensus_within (signsProposal : SignsProposal X.rounds)
    (voting : ∀ handover, self.handoverVoting = some handover → handover.Within allowed)
    {candidate : SapCandidate X.toNodeScheme} (mem : candidate ∈ allowed) :
    ∀ handover, (self.proposeHandoverConsensus candidate).2.handoverVoting = some handover →
      handover.Within allowed := by
  intro after found
  rw [proposeHandoverConsensus] at found
  split at found
  · rename_i handover current
    have within := (voting handover current).propose signsProposal mem
    rcases proposed : handover.propose candidate with ⟨error | vote, state⟩
    · rw [proposed] at found
      exact voting after found
    · rw [proposed] at found within
      obtain rfl := Option.some.inj found
      exact within
  · exact voting after found

end

namespace Recorded

variable {before : Recorded X}

theorem Sound.step (decidesProposals : DecidesProposals X.rounds fun decision => decision.proposals.map (·.1))
    (signsProposal : SignsProposal X.rounds) (sound : before.Sound) {event : Event X}
    (vetted : before.Vetted event) : (before.step event).Sound := by
  have kept : ∀ more handover, before.node.handoverVoting = some handover →
      handover.Within (before.passed ++ more) :=
    fun more handover current => (sound.voting handover current).mono more
  have still : ∀ more, ∀ candidate ∈ before.completed, candidate ∈ before.passed ++ more :=
    fun more candidate mem => List.mem_append_left more (sound.completed candidate mem)
  cases event with
  | vote signedVote =>
    obtain ⟨voting, announced⟩ := handleHandoverVote_within decidesProposals
      (kept (before.passing (X.rounds.proposals signedVote)))
      fun candidate mem => List.mem_append_right _ (mem_passing vetted mem)
    refine ⟨voting, fun candidate mem => ?_⟩
    rcases List.mem_append.mp mem with earlier | now
    · exact still _ candidate earlier
    · exact announced candidate now
  | propose candidate =>
    have mem : candidate ∈ before.passing [candidate] :=
      mem_passing (List.forall_mem_singleton.mpr vetted) (List.mem_singleton_self candidate)
    exact ⟨proposeHandoverConsensus_within signsProposal (kept _) (List.mem_append_right _ mem),
      still _⟩
  | learn knowledge => exact ⟨sound.voting, sound.completed⟩
  | renew config =>
    refine ⟨fun handover found => ?_, sound.completed⟩
    obtain ⟨chosen, -, rfl⟩ := Option.map_eq_some_iff.mp found
    exact .start chosen

/-- In any run in which all candidates that are voted on or proposed pass the check when they are, only
candidates that passed it are announced as completed. -/
theorem completed_passed (decidesProposals : DecidesProposals X.rounds fun decision => decision.proposals.map (·.1))
    (signsProposal : SignsProposal X.rounds) (knowledge : NetworkKnowledge X.sections) (events : List (Event X))
    (vetted : Runs.Throughout step Vetted ⟨⟨knowledge, none⟩, [], []⟩ events) :
    let after := Runs.run step ⟨⟨knowledge, none⟩, [], []⟩ events
    ∀ candidate ∈ after.completed, candidate ∈ after.passed := by
  have initial : Sound (X := X) ⟨⟨knowledge, none⟩, [], []⟩ := ⟨by simp, by simp⟩
  exact (vetted.induction initial fun _ _ sound vetted =>
    sound.step decidesProposals signsProposal vetted).completed

/-! ## Sample votes -/

def sampleCandidate (sig : Nat × Nat) : SapCandidate sampleNodeScheme :=
  .elderHandover ⟨NodeScheme.fromDkgSession (NodeScheme.sessionOf ∅ default ∅ 1 0) (1 : Nat), (1 : Nat), sig⟩

def sampleVotes (candidate : SapCandidate sampleNodeScheme) : List (Event Handover.sampleHandovers) :=
  [.renew (some (0 : Nat)), .vote ⟨0, 0, [candidate]⟩]

def sampleVoted (candidate : SapCandidate sampleNodeScheme) : Recorded Handover.sampleHandovers :=
  Runs.run step ⟨⟨sampleSection [] [], none⟩, [], []⟩ (sampleVotes candidate)

theorem completed_passed_sampleVotes :
    sampleCandidate (sampleSig 1 1) ∈ (sampleVoted (sampleCandidate (sampleSig 1 1))).completed ∧
      sampleCandidate (sampleSig 1 1) ∈ (sampleVoted (sampleCandidate (sampleSig 1 1))).passed := by
  have passes : (sampleSection [] []).checkSapCandidate (sampleCandidate (sampleSig 1 1)) = .ok () := by
    have checked : ((sampleSection [] []).checkSapCandidate
      (sampleCandidate (sampleSig 1 1))).isOk = true := by decide +kernel
    cases result : (sampleSection [] []).checkSapCandidate (sampleCandidate (sampleSig 1 1)) with
    | error => rw [result] at checked; cases checked
    | ok => rfl
  have announced : sampleCandidate (sampleSig 1 1) ∈
      (sampleVoted (sampleCandidate (sampleSig 1 1))).completed := List.mem_singleton_self _
  refine ⟨announced, completed_passed (X := Handover.sampleHandovers) (soloRounds_decidesProposals ?_)
    soloRounds_signsProposal _ (sampleVotes _) ⟨trivial, ?_, trivial⟩ _ announced⟩
  · simp [Handover.sampleHandoverDecision]
  · exact List.forall_mem_singleton.mpr passes

/-- A candidate that is not signed by its own key does not pass, and is announced all the same. -/
theorem completed_without_passing :
    ((sampleSection [] []).checkSapCandidate (sampleCandidate (sampleSig 2 1))).isOk = false ∧
      sampleCandidate (sampleSig 2 1) ∈ (sampleVoted (sampleCandidate (sampleSig 2 1))).completed ∧
      (sampleVoted (sampleCandidate (sampleSig 2 1))).passed.length = 0 :=
  ⟨by decide +kernel, List.mem_singleton_self _, by decide +kernel⟩

end Recorded

end HandoverNode

end SafeNetwork
