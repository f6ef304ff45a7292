import Mathlib

/-!
# Rounds of consensus

The interface of a crate by which a group agrees on sets of proposals, round by round. A round starts
from a configuration, takes signed votes and may reach a decision. What the crate does inside a round
is left open, but that it starts undecided, keeps its configuration and signs the vote it is asked
to. What its users rely on beyond that is stated as properties of the interface, in terms of the
votes a round was given.
-/

namespace Consensus

inductive VoteResponse (SignedVote : Type) where
  | waitingForMoreVotes
  | broadcast (vote : SignedVote)

/-- A crate of consensus rounds over a type of proposals and one of decisions. -/
structure Rounds (Proposal Decision : Type) where
  Config : Type
  Elders : Type
  Round : Type
  SignedVote : Type
  Error : Type
  start : Config → Round
  config : Round → Config
  /-- `Consensus::elders` — the keys of the group. -/
  elders : Config → Elders
  decision : Round → Option Decision
  /-- `Consensus::votes` — the latest vote of each voter. -/
  votes : Round → List SignedVote
  gen : SignedVote → Nat
  /-- `SignedVote::proposals` — of all votes that a vote contains. -/
  proposals : SignedVote → List Proposal
  /-- `SignedVote::validate_signature` against the keys of the group. -/
  validateSignature : Elders → SignedVote → Except Error Unit
  /-- `Consensus::sign_vote` of a vote for one proposal, with the faults the round has seen. -/
  signProposal : Round → Nat → Proposal → Except Error SignedVote
  /-- `SignedVote::detect_byzantine_faults` finds none. -/
  faultless : Round → SignedVote → Bool
  /-- `Consensus::handle_signed_vote` — the response and the round after the call. -/
  handleSignedVote : Round → SignedVote → Except Error (VoteResponse SignedVote) × Round
  castVote : Round → SignedVote → Except Error SignedVote × Round
  /-- `Consensus::build_super_majority_vote` of the votes and the faults of a round. -/
  buildSuperMajorityVote : Round → Nat → Except Error SignedVote
  config_start : ∀ settings, config (start settings) = settings
  decision_start : ∀ settings, decision (start settings) = none
  config_handleSignedVote : ∀ round vote, config (handleSignedVote round vote).2 = config round
  config_castVote : ∀ round vote, config (castVote round vote).2 = config round
  gen_signProposal : ∀ {round number proposal vote},
    signProposal round number proposal = .ok vote → gen vote = number

variable {Proposal Decision : Type} {C : Rounds Proposal Decision} {config : C.Config}
  {round : C.Round} {votes : List C.SignedVote}

/-- A round has been given some votes, the latest first. -/
inductive Given (C : Rounds Proposal Decision) (config : C.Config) :
    List C.SignedVote → C.Round → Prop where
  | start : Given C config [] (C.start config)
  | handle {votes : List C.SignedVote} {round : C.Round} (vote : C.SignedVote) :
    Given C config votes round → Given C config (vote :: votes) (C.handleSignedVote round vote).2
  | cast {votes : List C.SignedVote} {round : C.Round} (vote : C.SignedVote) :
    Given C config votes round → Given C config (vote :: votes) (C.castVote round vote).2

theorem Given.config_eq (given : Given C config votes round) : C.config round = config := by
  induction given with
  | start => exact C.config_start config
  | handle vote _ ih => rw [C.config_handleSignedVote, ih]
  | cast vote _ ih => rw [C.config_castVote, ih]

def DecidesProposals (C : Rounds Proposal Decision) (proposed : Decision → List Proposal) : Prop :=
  ∀ config votes round decision, Given C config votes round → C.decision round = some decision →
    ∀ proposal ∈ proposed decision, ∃ vote ∈ votes, proposal ∈ C.proposals vote

def DecidesGeneration (C : Rounds Proposal Decision) (generation : Decision → Nat) : Prop :=
  ∀ config votes round decision gen, Given C config votes round →
    (∀ vote ∈ votes, C.gen vote = gen) → C.decision round = some decision →
      generation decision = gen

def DecidesValid (C : Rounds Proposal Decision) (valid : C.Elders → Decision → Prop) : Prop :=
  ∀ config votes round decision, Given C config votes round → C.decision round = some decision →
    valid (C.elders config) decision

def SignsProposal (C : Rounds Proposal Decision) : Prop :=
  ∀ round number proposal vote, C.signProposal round number proposal = .ok vote →
    C.proposals vote = [proposal]

def KeepsDecision (C : Rounds Proposal Decision) : Prop :=
  ∀ round vote decision, C.decision round = some decision →
    C.decision (C.handleSignedVote round vote).2 = some decision

def CastKeepsDecision (C : Rounds Proposal Decision) : Prop :=
  ∀ round vote decision, C.decision round = some decision →
    C.decision (C.castVote round vote).2 = some decision

/-- The super-majority vote that can be built from a decided round of a generation: it is signed and
contains one of the votes that the round was given and none else, and any instance of the round that
has not decided otherwise takes it and decides the same. -/
structure Convinces (C : Rounds Proposal Decision) (elders : C.Elders) (gen : Nat)
    (votes : List C.SignedVote) (decision : Decision) (vote : C.SignedVote) : Prop where
  gen_eq : C.gen vote = gen
  signed : C.validateSignature elders vote = .ok ()
  proposed : ∀ proposal ∈ C.proposals vote, ∃ other ∈ votes, proposal ∈ C.proposals other
  contains : ∃ other ∈ votes, ∀ proposal ∈ C.proposals other, proposal ∈ C.proposals vote
  decides : ∀ config given round, C.elders config = elders → Given C config given round →
    (∀ other ∈ given, C.gen other = gen) →
    (∀ earlier, C.decision round = some earlier → earlier = decision) →
      (∃ response, (C.handleSignedVote round vote).1 = .ok response) ∧
        C.decision (C.handleSignedVote round vote).2 = some decision

def BuildsSuperMajority (C : Rounds Proposal Decision) : Prop :=
  ∀ config votes round decision gen, Given C config votes round →
    (∀ vote ∈ votes, C.gen vote = gen) → C.decision round = some decision →
      ∃ vote, C.buildSuperMajorityVote round gen = .ok vote ∧
        Convinces C (C.elders config) gen votes decision vote

end Consensus
