import SafeNetwork.Library.Consensus

/-!
# Rounds of one voter

A group of one voter decides on the first vote it is given: no other vote is missing for a majority.
These rounds meet what is asked of the interface, for any way to build a decision from proposals.
-/

namespace Consensus

variable {Proposal Decision : Type}

structure SoloVote (Proposal : Type) where
  voter : Nat
  gen : Nat
  proposals : List Proposal

structure SoloRound (Proposal Decision : Type) where
  voter : Nat
  decided : Option (SoloVote Proposal × Decision)

namespace SoloRound

def give (build : Nat → Nat → List Proposal → Decision) (self : SoloRound Proposal Decision)
    (vote : SoloVote Proposal) : SoloRound Proposal Decision :=
  match self.decided with
  | some _ => self
  | none => { self with decided := some (vote, build self.voter vote.gen vote.proposals) }

theorem give_voter (build : Nat → Nat → List Proposal → Decision)
    (self : SoloRound Proposal Decision) (vote : SoloVote Proposal) : (self.give build vote).voter = self.voter := by
  rw [give]
  split <;> rfl

end SoloRound

abbrev soloRounds (build : Nat → Nat → List Proposal → Decision) : Rounds Proposal Decision where
  Config := Nat
  Elders := Nat
  Round := SoloRound Proposal Decision
  SignedVote := SoloVote Proposal
  Error := Unit
  start voter := ⟨voter, none⟩
  config := SoloRound.voter
  elders voter := voter
  decision round := round.decided.map Prod.snd
  votes round := round.decided.toList.map Prod.fst
  gen := SoloVote.gen
  proposals := SoloVote.proposals
  validateSignature voter vote := if vote.voter = voter then .ok () else .error ()
  signProposal round gen proposal := .ok ⟨round.voter, gen, [proposal]⟩
  faultless _ _ := true
  handleSignedVote round vote := (.ok .waitingForMoreVotes, round.give build vote)
  castVote round vote := (.ok vote, round.give build vote)
  buildSuperMajorityVote round gen :=
    match round.decided with
    | some (vote, _) => .ok ⟨round.voter, gen, vote.proposals⟩
    | none => .error ()
  config_start _ := rfl
  decision_start _ := rfl
  config_handleSignedVote round vote := round.give_voter build vote
  config_castVote round vote := round.give_voter build vote
  gen_signProposal signed := Except.ok.inj signed ▸ rfl

variable {build : Nat → Nat → List Proposal → Decision} {self : SoloRound Proposal Decision}
  {vote : SoloVote Proposal} {decision : Decision} {voter : Nat} {votes : List (soloRounds build).SignedVote}
  {round : (soloRounds build).Round}

theorem SoloRound.give_decided {other : SoloVote Proposal} (decided : (self.give build vote).decided = some (other, decision)) :
    self.decided = some (other, decision) ∨
      other = vote ∧ decision = build self.voter vote.gen vote.proposals := by
  rw [give] at decided
  split at decided
  · exact .inl decided
  · obtain ⟨rfl, rfl⟩ := Prod.mk.inj (Option.some.inj decided)
    exact .inr ⟨rfl, rfl⟩

theorem soloRounds_given (given : Given (soloRounds build) voter votes round) (decided : round.decided = some (vote, decision)) :
    vote ∈ votes ∧ decision = build voter vote.gen vote.proposals := by
  induction given with
  | start => cases decided
  | handle last given ih =>
    obtain before | ⟨rfl, rfl⟩ := SoloRound.give_decided decided
    · exact ⟨List.mem_cons_of_mem _ (ih before).1, (ih before).2⟩
    · exact ⟨List.mem_cons_self .., by rw [← given.config_eq]⟩
  | cast last given ih =>
    obtain before | ⟨rfl, rfl⟩ := SoloRound.give_decided decided
    · exact ⟨List.mem_cons_of_mem _ (ih before).1, (ih before).2⟩
    · exact ⟨List.mem_cons_self .., by rw [← given.config_eq]⟩

theorem soloRounds_decision (given : Given (soloRounds build) voter votes round) (decided : (soloRounds build).decision round = some decision) :
    ∃ vote ∈ votes, round.decided = some (vote, decision) ∧
      decision = build voter vote.gen vote.proposals := by
  obtain ⟨⟨vote, _⟩, found, rfl⟩ := Option.map_eq_some_iff.mp decided
  obtain ⟨known, built⟩ := soloRounds_given given found
  exact ⟨vote, known, found, built⟩

theorem soloRounds_decidesProposals {proposed : Decision → List Proposal}
    (among : ∀ voter gen proposals, ∀ proposal ∈ proposed (build voter gen proposals),
      proposal ∈ proposals) : DecidesProposals (soloRounds build) proposed := by
  intro voter votes round decision given decided proposal listed
  obtain ⟨vote, known, _, rfl⟩ := soloRounds_decision given decided
  exact ⟨vote, known, among _ _ _ proposal listed⟩

theorem soloRounds_decidesGeneration {generation : Decision → Nat}
    (carries : ∀ voter gen proposals, generation (build voter gen proposals) = gen) :
    DecidesGeneration (soloRounds build) generation := by
  intro voter votes round decision gen given same decided
  obtain ⟨vote, known, _, rfl⟩ := soloRounds_decision given decided
  rw [carries]
  exact same vote known

theorem soloRounds_decidesValid {valid : Nat → Decision → Prop}
    (passes : ∀ voter gen proposals, valid voter (build voter gen proposals)) :
    DecidesValid (soloRounds build) valid := by
  intro voter votes round decision given decided
  obtain ⟨vote, known, _, rfl⟩ := soloRounds_decision given decided
  exact passes _ _ _

theorem SoloRound.give_of_decided (decided : self.decided.map Prod.snd = some decision) (vote : SoloVote Proposal) :
    (self.give build vote).decided.map Prod.snd = some decision := by
  rw [SoloRound.give]
  split
  · exact decided
  · rename_i undecided
    rw [undecided] at decided
    cases decided

theorem soloRounds_keepsDecision : KeepsDecision (soloRounds build) :=
  fun _ vote _ decided => SoloRound.give_of_decided decided vote

theorem soloRounds_castKeepsDecision : CastKeepsDecision (soloRounds build) :=
  fun _ vote _ decided => SoloRound.give_of_decided decided vote

theorem soloRounds_signsProposal : SignsProposal (soloRounds build) := by
  rintro _ _ _ _ ⟨⟩
  rfl

theorem soloRounds_buildsSuperMajority : BuildsSuperMajority (soloRounds build) := by
  intro voter votes round decision gen given same decided
  obtain ⟨vote, known, found, built⟩ := soloRounds_decision given decided
  have voter_eq : round.voter = voter := given.config_eq
  refine ⟨⟨voter, gen, vote.proposals⟩, by simp [found, voter_eq], rfl, by simp, ?_, ?_, ?_⟩
  · intro proposal listed
    exact ⟨vote, known, listed⟩
  · exact ⟨vote, known, fun _ listed => listed⟩
  · rintro config others round rfl given' _ undecided
    refine ⟨⟨_, rfl⟩, ?_⟩
    dsimp only
    rw [SoloRound.give]
    split
    · rename_i earlier found'
      rw [← undecided earlier.2 (by simp [found']), found']
      rfl
    · have voter_eq' : round.voter = config := given'.config_eq
      have gen_eq : vote.gen = gen := same vote known
      simp [voter_eq', built, gen_eq]

end Consensus
