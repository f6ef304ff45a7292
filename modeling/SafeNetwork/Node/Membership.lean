import SafeNetwork.Library.Consensus
import SafeNetwork.NetworkKnowledge.MemberDecisions

/-!
# Membership

`node/membership/mod.rs`: the elders of a section vote on the states of its nodes, one generation
after the other. A membership holds the round in progress, and the decision and the round of every
generation before it. Votes for past generations go to their old rounds. The time of the last vote,
which no result depends on, is left out.
-/

namespace SafeNetwork

open Std Consensus

/-- `membership::Error`. -/
inductive MembershipError (PublicKey ConsensusError : Type) where
  | consensus (error : ConsensusError)
  | badGeneration (requestedGen gen : Nat)
  | invalidGeneration (gen : Nat)
  | requestAntiEntropy
  | invalidProposal
  | networkKnowledge (error : Error PublicKey)

/-- The rounds in which elders agree on node states. -/
abbrev MemberRounds (N : NodeScheme) : Type 1 := Rounds N.State (Decision N.sections)

structure Membership {N : NodeScheme} (C : MemberRounds N) where
  consensus : C.Round
  bootstrapMembers : ExtTreeSet N.State
  gen : Nat
  history : ExtTreeMap Nat (Decision N.sections × C.Round)

namespace Membership

variable {N : NodeScheme} {C : MemberRounds N}

abbrev Result (C : MemberRounds N) (α : Type) : Type := Except (MembershipError N.PublicKey C.Error) α

/-- `Membership::from`. -/
def fromElders (config : C.Config) (bootstrapMembers : ExtTreeSet N.State) : Membership C :=
  ⟨C.start config, bootstrapMembers, 0, ∅⟩

def consensusAtGen (self : Membership C) (gen : Nat) : Result C C.Round :=
  if gen = self.gen + 1 then .ok self.consensus
  else
    match self.history[gen]? with
    | some (_, consensus) => .ok consensus
    | none => .error (.badGeneration gen self.gen)

/-- The membership with another round for a generation: what a change through
`Membership::consensus_at_gen_mut` leaves. -/
def setConsensusAtGen (self : Membership C) (gen : Nat) (consensus : C.Round) : Membership C :=
  if gen = self.gen + 1 then { self with consensus }
  else { self with history := self.history.modify gen fun entry => (entry.1, consensus) }

def archiveStates (archive : ExtTreeSet XorName) (nodeStates : List N.State) : ExtTreeSet XorName :=
  nodeStates.foldl (fun members nodeState =>
    match nodeState.state with
    | .joined => members
    | .left => members.insert nodeState.name
    | .relocated _ => members.insert nodeState.name) archive

def archivedMembers (self : Membership C) : ExtTreeSet XorName :=
  self.history.toList.foldl (fun members entry =>
    archiveStates members entry.2.1.proposals.keys)
    (archiveStates ∅ self.bootstrapMembers.toList)

/-- The loop of `Membership::section_members`: the decisions up to a generation. -/
def membersUpTo (gen : Nat) (members : N.Members) :
    List (Nat × (Decision N.sections × C.Round)) → Result C N.Members
  | [] => .error (.invalidGeneration gen)
  | (historyGen, decision, _) :: rest =>
    let members := NodeScheme.applyDecision members decision
    if historyGen = gen then .ok members else membersUpTo gen members rest

/-- `Membership::section_members` — only section members reporting joined till a generation. -/
def sectionMembers (self : Membership C) (gen : Nat) : Result C N.Members :=
  let members := NodeScheme.joinedMembers self.bootstrapMembers
  if gen = 0 then .ok members else membersUpTo gen members self.history.toList

/-- The loop of `Membership::validate_proposals` over the proposals of a vote. -/
def validateAll (sapPrefix : Prefix) (members : N.Members) (archived : ExtTreeSet XorName) :
    List N.State → Result C Unit
  | [] => .ok ()
  | proposal :: rest =>
    match NodeScheme.validateNodeState proposal sapPrefix members archived with
    | .ok () => validateAll sapPrefix members archived rest
    | .error error => .error (.networkKnowledge error)

/-- Whether the proposals of a vote were all decided in the generation before it. -/
def isOutdated (self : Membership C) (signedVote : C.SignedVote) : Bool :=
  let voteGen := C.gen signedVote
  voteGen > 1 &&
    match self.history[voteGen - 1]? with
    | some (prevDecision, _) => (C.proposals signedVote).all (prevDecision.proposals.contains ·)
    | none => false

def validateProposals (self : Membership C) (signedVote : C.SignedVote) (sapPrefix : Prefix) :
    Result C Unit :=
  if self.isOutdated signedVote then .error .invalidProposal
  else
    match C.validateSignature (C.elders (C.config self.consensus)) signedVote with
    | .error error => .error (.consensus error)
    | .ok () =>
      match self.consensusAtGen (C.gen signedVote) with
      | .error _ => .error .requestAntiEntropy
      | .ok _ =>
        match self.sectionMembers (C.gen signedVote - 1) with
        | .error error => .error error
        | .ok members =>
          validateAll sapPrefix members self.archivedMembers (C.proposals signedVote)

def castVote (self : Membership C) (signedVote : C.SignedVote) :
    Result C C.SignedVote × Membership C :=
  match C.castVote self.consensus signedVote with
  | (.ok vote, consensus) => (.ok vote, { self with consensus })
  | (.error error, consensus) => (.error (.consensus error), { self with consensus })

def propose (self : Membership C) (nodeState : N.State) (sapPrefix : Prefix) :
    Result C C.SignedVote × Membership C :=
  match C.signProposal self.consensus (self.gen + 1) nodeState with
  | .error error => (.error (.consensus error), self)
  | .ok signedVote =>
    match self.validateProposals signedVote sapPrefix with
    | .error error => (.error error, self)
    | .ok () =>
      if C.faultless self.consensus signedVote then self.castVote signedVote
      else (.error .invalidProposal, self)

/-- `Membership::handle_signed_vote` — the response and the decision of a vote that ends the round in
progress. -/
def handleSignedVote (self : Membership C) (signedVote : C.SignedVote) (sapPrefix : Prefix) :
    Result C (VoteResponse C.SignedVote × Option (Decision N.sections)) × Membership C :=
  match self.validateProposals signedVote sapPrefix with
  | .error error => (.error error, self)
  | .ok () =>
    let voteGen := C.gen signedVote
    match self.consensusAtGen voteGen with
    | .error error => (.error error, self)
    | .ok consensus =>
      match C.handleSignedVote consensus signedVote with
      | (.error error, consensus) =>
        (.error (.consensus error), self.setConsensusAtGen voteGen consensus)
      | (.ok voteResponse, consensus) =>
        match C.decision consensus with
        | some decision =>
          if voteGen = self.gen + 1 then
            (.ok (voteResponse, some decision), { self with
              consensus := C.start (C.config consensus)
              history := self.history.insert voteGen (decision, consensus)
              gen := voteGen })
          else (.ok (voteResponse, none), self.setConsensusAtGen voteGen consensus)
        | none => (.ok (voteResponse, none), self.setConsensusAtGen voteGen consensus)

def catchupVotes (fromGen : Nat) :
    List (Nat × (Decision N.sections × C.Round)) → Result C (List C.SignedVote)
  | [] => .ok []
  | (gen, _, consensus) :: rest =>
    if fromGen ≤ gen then
      match C.buildSuperMajorityVote consensus gen with
      | .error error => .error (.consensus error)
      | .ok vote => (catchupVotes fromGen rest).map (vote :: ·)
    else catchupVotes fromGen rest

/-- `Membership::anti_entropy` — the current in-progress votes are included as well. -/
def antiEntropy (self : Membership C) (fromGen : Nat) : Result C (List C.SignedVote) :=
  (catchupVotes fromGen self.history.toList).map (· ++ C.votes self.consensus)

end Membership

end SafeNetwork
