import SafeNetwork.NetworkKnowledge.OwnChain
import SafeNetwork.Node.MembershipCatchup

/-!
# An elder

`node/mod.rs` and `messaging/anti_entropy.rs`: an elder has its knowledge of the network, the key shares
of the sections it was elected for and a membership. The members of its section are kept twice. The
knowledge has them in its `SectionMemberHistory`, whose archive outlives changes of the SAP. The
membership has its own history, and is built anew from the members of the SAP when the section key has
changed.
-/

namespace SafeNetwork

open Std Consensus OrderedMap

/-- What an elder uses of the crates to set up its membership. -/
structure ElderScheme (M : MemberScheme) where
  rounds : MemberRounds M.toNodeScheme
  KeyShare : Type
  /-- `public_key_set.public_key()` of a key share. -/
  publicKey : KeyShare → M.PublicKey
  /-- The configuration of the rounds for a key share and a number of elders. -/
  config : KeyShare → Nat → rounds.Config
  sectionKey : rounds.Elders → M.PublicKey
  sectionKey_config : ∀ share count, sectionKey (rounds.elders (config share count)) = publicKey share

def keyCacheSize : Nat := 50

namespace NetworkKnowledge

variable {M : MemberScheme}

def isElder (self : NetworkKnowledge M.sections) (name : XorName) : Bool :=
  NodeScheme.containsElder self.signedSap.value name

def tryUpdateMember (self : NetworkKnowledge M.sections) (decision : Decision M.sections) :
    M.Result Bool × NetworkKnowledge M.sections :=
  let (updated, sectionMembers) := self.sectionMembers.update self.sectionKey decision
  (updated, { self with sectionMembers })

def updateSectionMemberKnowledge (self : NetworkKnowledge M.sections)
    (updatedMembers : Option (List (Decision M.sections))) : NetworkKnowledge M.sections :=
  match updatedMembers with
  | some members =>
    { self with sectionMembers := (self.sectionMembers.updatePeers self.sectionKey members).2 }
  | none => self

end NetworkKnowledge

/-- The part of `MyNode` that its membership depends on. -/
structure Elder {M : MemberScheme} (E : ElderScheme M) where
  name : XorName
  knowledge : NetworkKnowledge M.sections
  /-- `section_keys_provider` — the latest key shares first. -/
  keyShares : List E.KeyShare
  membership : Option (Membership E.rounds)

namespace Elder

variable {M : MemberScheme} {E : ElderScheme M}

def keyShare (self : Elder E) (publicKey : M.PublicKey) : Option E.KeyShare :=
  self.keyShares.find? (E.publicKey · == publicKey)

/-- `Membership::section_key_set`, as the public key of the set. -/
def membershipKey (E : ElderScheme M) (membership : Membership E.rounds) : M.PublicKey :=
  E.sectionKey (E.rounds.elders (E.rounds.config membership.consensus))

def lacksMembership (self : Elder E) : Bool :=
  match self.membership with
  | some membership => membershipKey E membership != self.knowledge.sectionKey
  | none => true

/-- `MyNode::initialize_membership` — nothing is done when it has been for our SAP. -/
def initializeMembership (self : Elder E) (key : E.KeyShare) : Elder E :=
  let sap := self.knowledge.signedSap.value
  if self.lacksMembership then
    { self with
      membership := some (.fromElders (E.config key sap.elders.toList.length) sap.members) }
  else self

def updateOnSapChange (self : Elder E) : Elder E :=
  if self.knowledge.isElder self.name then
    match self.keyShare self.knowledge.sectionKey with
    | some key => self.initializeMembership key
    | none => self
  else { self with membership := none }

/-- `MyNode::handle_anti_entropy_msg`. An agreement on new elders does the same without decisions. -/
def handleAntiEntropyMsg (self : Elder E) (update : SectionTreeUpdate M.sections)
    (sectionDecisions : Option (List (Decision M.sections))) : Elder E :=
  let alreadyUpdated := self.knowledge.sectionKey == update.signedSap.sectionKey
  match self.knowledge.updateSapKnowledgeIfValid update self.name with
  | (.error _, knowledge) => { self with knowledge }
  | (.ok true, knowledge) =>
    ({ self with
      knowledge := knowledge.updateSectionMemberKnowledge sectionDecisions } : Elder E).updateOnSapChange
  | (.ok false, knowledge) =>
    if alreadyUpdated then
      { self with knowledge := knowledge.updateSectionMemberKnowledge sectionDecisions }
    else { self with knowledge }

/-! ## Events -/

inductive Event (E : ElderScheme M) where
  /-- The outcome of a DKG: `SectionKeysProvider::insert`. -/
  | keyShare (share : E.KeyShare)
  /-- `MyNode::handle_membership_votes`. -/
  | membershipVotes (signedVotes : List E.rounds.SignedVote)
  /-- `MyNode::propose_membership_change`. -/
  | propose (nodeState : M.State)
  /-- `MyNode::handle_membership_decision`, in its effect on the members. -/
  | membershipDecision (decision : Decision M.sections)
  /-- `MyNode::handle_anti_entropy_msg`, or an agreement on new elders. -/
  | antiEntropy (update : SectionTreeUpdate M.sections)
    (sectionDecisions : Option (List (Decision M.sections)))
  /-- `Cmd::UpdateNetworkAndHandleValidClientMsg` — our SAP may change and nothing else is done. -/
  | sapUpdate (update : SectionTreeUpdate M.sections)

def step (self : Elder E) : Event E → Elder E
  | .keyShare share => { self with keyShares := (share :: self.keyShares).take keyCacheSize }
  | .membershipVotes signedVotes =>
    { self with membership :=
      (Membership.handleMembershipVotes self.knowledge.ourPrefix self.membership signedVotes).2 }
  | .propose nodeState =>
    { self with membership :=
      self.membership.map fun membership => (membership.propose nodeState self.knowledge.ourPrefix).2 }
  | .membershipDecision decision => { self with knowledge := (self.knowledge.tryUpdateMember decision).2 }
  | .antiEntropy update sectionDecisions => self.handleAntiEntropyMsg update sectionDecisions
  | .sapUpdate update =>
    { self with knowledge := (self.knowledge.updateSapKnowledgeIfValid update self.name).2 }

def Event.update : Event E → Option (SectionTreeUpdate M.sections)
  | .antiEntropy update _ => some update
  | .sapUpdate update => some update
  | _ => none

def renews (self : Elder E) : Event E → Bool
  | .antiEntropy update sectionDecisions =>
    let after := (self.step (.antiEntropy update sectionDecisions)).knowledge
    match (self.knowledge.updateSapKnowledgeIfValid update self.name).1 with
    | .ok true => after.isElder self.name && (self.keyShare after.sectionKey).isSome &&
        ({ self with knowledge := after } : Elder E).lacksMembership
    | _ => false
  | _ => false

end Elder

end SafeNetwork
