import SafeNetwork.Node.ElderCandidates

/-!
# Distributed key generation

`dkg/mod.rs` and `messaging/dkg.rs`: before the candidates of a session generate a section key, each of
them generates an ephemeral key, signs it and sends it to the others. Whoever has the keys of all elders
of the session goes on with votes, which carry the keys as well. A session is known by a hash, and what
is kept for it is found by that hash.

The key generation itself is a crate of its own, and a parameter.
-/

namespace SafeNetwork

open Std

/-- `sn_sdkg::VoteResponse`. -/
inductive DkgVoteResponse (Vote PublicKeySet SecretKeyShare : Type) where
  | waitingForMoreVotes
  | requestAntiEntropy
  | broadcastVote (vote : Vote)
  | dkgComplete (publicKeySet : PublicKeySet) (secretKeyShare : SecretKeyShare)

/-- What key generation uses of the crates: ephemeral keys (`blsttc`), their signatures (`ed25519`), the
hash of a session (`Sha3`) and the states of the sessions (`sn_sdkg`). -/
structure DkgScheme extends NodeScheme where
  SecretKey : Type
  SecretKeyShare : Type
  EdPublicKey : Type
  EdSignature : Type
  Keypair : Type
  Digest256 : Type
  DkgState : Type
  DkgSignedVote : Type
  SdkgError : Type
  [decidableEqEdSignature : DecidableEq EdSignature]
  [ordDigest256 : Ord Digest256]
  [transOrdDigest256 : TransOrd Digest256]
  [lawfulEqOrdDigest256 : LawfulEqOrd Digest256]
  ephemeralKey : SecretKey → PublicKey
  /-- `keys::ed25519::pub_key` — the key that a name consists of, if it is one. -/
  pubKey : XorName → Option EdPublicKey
  /-- `keys::ed25519::name` of our public key. -/
  nameOf : Keypair → XorName
  sign : Keypair → List UInt8 → EdSignature
  verifyEd : EdPublicKey → List UInt8 → EdSignature → Bool
  sha3 : List Bool → Digest256
  /-- `bincode::serialize` of a session. -/
  serializeSession : DkgSessionId toNodeScheme → Option (List UInt8)
  newState : UInt8 → SecretKey → ExtTreeMap UInt8 PublicKey → Nat → Except SdkgError DkgState
  firstVote : DkgState → Except SdkgError DkgSignedVote × DkgState
  allVotes : DkgState → List DkgSignedVote
  handleSignedVote : DkgState → DkgSignedVote →
    Except SdkgError (List (DkgVoteResponse DkgSignedVote PublicKeySet SecretKeyShare)) × DkgState

attribute [instance] DkgScheme.decidableEqEdSignature DkgScheme.ordDigest256
  DkgScheme.transOrdDigest256 DkgScheme.lawfulEqOrdDigest256

/-- `Prefix::name` — the first name with the prefix. -/
def Prefix.name (self : Prefix) : XorName := ⟨self.bits.takeD 256 false, List.takeD_length ..⟩

variable {G : DkgScheme}

abbrev DkgScheme.SessionId (G : DkgScheme) : Type := DkgSessionId G.toNodeScheme

namespace DkgSessionId

def byteBits (byte : Nat) : List Bool := (List.range 8).map fun index => byte.testBit (7 - index)

/-- The bits that `DkgSessionId::hash_update` feeds to the hash: names, and the chain length in eight
bytes, least significant first. -/
def hashUpdate (self : G.SessionId) : List Bool :=
  self.sapPrefix.name.bits ++ self.elders.keys.flatMap (·.bits) ++
    (List.range 8).flatMap (fun index => byteBits (self.sectionChainLen / 256 ^ index % 256)) ++
    self.bootstrapMembers.toList.flatMap (·.name.bits)

def hash (self : G.SessionId) : G.Digest256 := G.sha3 self.hashUpdate

def memberNames (self : G.SessionId) : List XorName := self.bootstrapMembers.toList.map (·.name)

def elderIndex (self : G.SessionId) (elder : XorName) : Option Nat := self.elders.keys.idxOf? elder

end DkgSessionId

inductive DkgError (G : DkgScheme) where
  | nodeNotInDkgSession (name : XorName)
  | invalidXorname (name : XorName)
  | bincode
  | invalidSignature
  | dkgEphemeralKeyAlreadyGenerated
  | noDkgKeysForSession (sessionId : G.SessionId)
  | noDkgStateForSession (sessionId : G.SessionId)
  | doubleKeyAttackDetected (name : XorName) (key : G.PublicKey) (sig : G.EdSignature)
    (alreadyHad : G.PublicKey) (oldSig : G.EdSignature)
  | sdkg (error : G.SdkgError)

/-- `DkgPubKeys` — the ephemeral keys of participants with their signatures. -/
abbrev DkgPubKeys (G : DkgScheme) : Type := ExtTreeMap XorName (G.PublicKey × G.EdSignature)

structure DkgEphemeralKeys (G : DkgScheme) where
  secretKey : G.SecretKey
  pubKeys : DkgPubKeys G

structure DkgVoter (G : DkgScheme) where
  dkgEphemeralKeys : ExtTreeMap G.Digest256 (DkgEphemeralKeys G) := ∅
  dkgStates : ExtTreeMap G.Digest256 G.DkgState := ∅

def indexedKeys (sessionId : G.SessionId) :
    List (XorName × G.PublicKey × G.EdSignature) → ExtTreeMap UInt8 G.PublicKey →
      Except (DkgError G) (ExtTreeMap UInt8 G.PublicKey)
  | [], publicKeys => .ok publicKeys
  | (name, ephemeralPk, _) :: rest, publicKeys =>
    match sessionId.elderIndex name with
    | some index => indexedKeys sessionId rest (publicKeys.insert (UInt8.ofNat index) ephemeralPk)
    | none => .error (.nodeNotInDkgSession name)

def createDkgState (sessionId : G.SessionId) (participantIndex : Nat) (secretKey : G.SecretKey)
    (ephemeralBlsPks : DkgPubKeys G) : Except (DkgError G) G.DkgState :=
  match indexedKeys sessionId ephemeralBlsPks.toList ∅ with
  | .error error => .error error
  | .ok publicKeys =>
    match G.newState (UInt8.ofNat participantIndex) secretKey publicKeys
      (threshold sessionId.elders.size) with
    | .error error => .error (.sdkg error)
    | .ok state => .ok state

def checkEphemeralDkgKey (sessionId : G.SessionId) (keyOwner : XorName) (key : G.PublicKey)
    (keySig : G.EdSignature) : Except (DkgError G) Unit :=
  if keyOwner ∉ sessionId.elders then .error (.nodeNotInDkgSession keyOwner)
  else
    match G.pubKey keyOwner with
    | none => .error (.invalidXorname keyOwner)
    | some senderPubkey =>
      match G.serializeKey key with
      | none => .error .bincode
      | some serializedKey =>
        if G.verifyEd senderPubkey serializedKey keySig then .ok () else .error .invalidSignature

namespace DkgVoter

/-- `DkgVoter::gen_ephemeral_key`, with the key that is drawn. -/
def genEphemeralKey (self : DkgVoter G) (sessionId : G.SessionId) (ourName : XorName)
    (keypair : G.Keypair) (newSecretKey : G.SecretKey) :
    Except (DkgError G) (G.PublicKey × G.EdSignature) × DkgVoter G :=
  if sessionId.hash ∈ self.dkgEphemeralKeys then (.error .dkgEphemeralKeyAlreadyGenerated, self)
  else
    let newPubKey := G.ephemeralKey newSecretKey
    match G.serializeKey newPubKey with
    | none => (.error .bincode, self)
    | some serializedKey =>
      let keySig := G.sign keypair serializedKey
      let ephemeralKeys := ⟨newSecretKey, (∅ : DkgPubKeys G).insert ourName (newPubKey, keySig)⟩
      (.ok (newPubKey, keySig),
        { self with dkgEphemeralKeys := self.dkgEphemeralKeys.insert sessionId.hash ephemeralKeys })

def initializeDkgState (self : DkgVoter G) (sessionId : G.SessionId) (participantIndex : Nat) :
    Except (DkgError G) (G.DkgSignedVote × DkgPubKeys G) × DkgVoter G :=
  match self.dkgEphemeralKeys[sessionId.hash]? with
  | none => (.error (.noDkgKeysForSession sessionId), self)
  | some ourKeys =>
    match createDkgState sessionId participantIndex ourKeys.secretKey ourKeys.pubKeys with
    | .error error => (.error error, self)
    | .ok created =>
      let dkgState := self.dkgStates[sessionId.hash]?.getD created
      let (vote, dkgState) := G.firstVote dkgState
      let self := { self with dkgStates := self.dkgStates.insert sessionId.hash dkgState }
      match vote with
      | .error error => (.error (.sdkg error), self)
      | .ok firstVote => (.ok (firstVote, ourKeys.pubKeys), self)

/-- `DkgVoter::save_key` — whether the set was just completed. -/
def saveKey (self : DkgVoter G) (sessionId : G.SessionId) (keyOwner : XorName) (key : G.PublicKey)
    (keySig : G.EdSignature) : Except (DkgError G) Bool × DkgVoter G :=
  match checkEphemeralDkgKey sessionId keyOwner key keySig with
  | .error error => (.error error, self)
  | .ok () =>
    match self.dkgEphemeralKeys[sessionId.hash]? with
    | none => (.error (.noDkgKeysForSession sessionId), self)
    | some ourKeys =>
      match ourKeys.pubKeys[keyOwner]? with
      | some (alreadyHad, oldSig) =>
        if alreadyHad ≠ key then
          (.error (.doubleKeyAttackDetected keyOwner key keySig alreadyHad oldSig), self)
        else (.ok false, self)
      | none =>
        let pubKeys := ourKeys.pubKeys.insert keyOwner (key, keySig)
        let justCompleted := pubKeys.keys == sessionId.elders.keys
        (.ok justCompleted, { self with
          dkgEphemeralKeys := self.dkgEphemeralKeys.insert sessionId.hash { ourKeys with pubKeys } })

def tryInitDkg (self : DkgVoter G) (sessionId : G.SessionId) (participantIndex : Nat)
    (ephemeralPubKey : G.PublicKey) (keySig : G.EdSignature) (sender : XorName) :
    Except (DkgError G) (Option (G.DkgSignedVote × DkgPubKeys G)) × DkgVoter G :=
  match self.saveKey sessionId sender ephemeralPubKey keySig with
  | (.error error, self) => (.error error, self)
  | (.ok false, self) => (.ok none, self)
  | (.ok true, self) =>
    match self.initializeDkgState sessionId participantIndex with
    | (.error error, self) => (.error error, self)
    | (.ok start, self) => (.ok (some start), self)

/-- Save keys one after the other, up to the first error: whether one of them completed the set. -/
def saveKeys (self : DkgVoter G) (sessionId : G.SessionId) :
    List (XorName × G.PublicKey × G.EdSignature) → Except (DkgError G) Bool × DkgVoter G
  | [] => (.ok false, self)
  | (name, key, keySig) :: rest =>
    match self.saveKey sessionId name key keySig with
    | (.error error, self) => (.error error, self)
    | (.ok completed, self) =>
      match self.saveKeys sessionId rest with
      | (.error error, self) => (.error error, self)
      | (.ok later, self) => (.ok (completed || later), self)

theorem saveKeys_keeps {motive : DkgVoter G → Prop} {sessionId : G.SessionId}
    {entries : List (XorName × G.PublicKey × G.EdSignature)} (saves : ∀ before, ∀ entry ∈ entries, motive before →
      motive (saveKey before sessionId entry.1 entry.2.1 entry.2.2).2)
    {before : DkgVoter G} (holds : motive before) : motive (before.saveKeys sessionId entries).2 := by
  induction entries generalizing before with
  | nil => exact holds
  | cons entry rest ih =>
    obtain ⟨owner, key, sig⟩ := entry
    have first := saves before _ (List.mem_cons_self ..) holds
    have later := ih (fun node entry mem => saves node entry (List.mem_cons_of_mem _ mem)) first
    rw [saveKeys]
    generalize before.saveKey sessionId owner key sig = saved at first later ⊢
    obtain ⟨_ | completed, after⟩ := saved
    · exact first
    · dsimp only at later ⊢
      generalize after.saveKeys sessionId rest = final at later ⊢
      obtain ⟨_ | _, final⟩ := final
      · exact later
      · exact later

def checkKeys (self : DkgVoter G) (sessionId : G.SessionId) (keys : DkgPubKeys G) :
    Except (DkgError G) (DkgPubKeys G × Bool) × DkgVoter G :=
  match self.dkgEphemeralKeys[sessionId.hash]? with
  | none => (.error (.noDkgKeysForSession sessionId), self)
  | some ourKeys =>
    if keys.toList = ourKeys.pubKeys.toList then (.ok (keys, false), self)
    else
      match self.saveKeys sessionId keys.toList with
      | (.error error, self) => (.error error, self)
      | (.ok completed, self) => (.ok (keys, completed), self)

def getAllVotes (self : DkgVoter G) (sessionId : G.SessionId) :
    Except (DkgError G) (List G.DkgSignedVote) :=
  match self.dkgStates[sessionId.hash]? with
  | some state => .ok (G.allVotes state)
  | none => .error (.noDkgStateForSession sessionId)

def getDkgKeys (self : DkgVoter G) (sessionId : G.SessionId) : Except (DkgError G) (DkgPubKeys G) :=
  match self.dkgEphemeralKeys[sessionId.hash]? with
  | some ourKeys => .ok ourKeys.pubKeys
  | none => .error (.noDkgKeysForSession sessionId)

def handleDkgVote (self : DkgVoter G) (sessionId : G.SessionId) (vote : G.DkgSignedVote) :
    Except (DkgError G) (List (DkgVoteResponse G.DkgSignedVote G.PublicKeySet G.SecretKeyShare)) ×
      DkgVoter G :=
  match self.dkgStates[sessionId.hash]? with
  | none => (.error (.noDkgStateForSession sessionId), self)
  | some state =>
    let (result, state) := G.handleSignedVote state vote
    let self := { self with dkgStates := self.dkgStates.insert sessionId.hash state }
    match result with
    | .error error => (.error (.sdkg error), self)
    | .ok responses => (.ok responses, self)

end DkgVoter

inductive DkgCmd (G : DkgScheme) where
  /-- Send `DkgEphemeralPubKey` to the other participants. -/
  | broadcastDkgEphemeralPubKey (sessionId : G.SessionId) (sectionAuth : SectionSig G.toKeyScheme)
    (pubKey : G.PublicKey) (sig : G.EdSignature)
  /-- Send `DkgVotes` to the other participants. -/
  | broadcastDkgVotes (sessionId : G.SessionId) (pubKeys : DkgPubKeys G) (ourId : Nat)
    (votes : List G.DkgSignedVote)
  /-- Send `DkgVotes` to one of them. -/
  | gossipDkgVotes (sessionId : G.SessionId) (pubKeys : DkgPubKeys G) (votes : List G.DkgSignedVote)
    (recipient : NodeId G.SocketAddr)
  | requestDkgAe (sessionId : G.SessionId) (recipient : NodeId G.SocketAddr)
  | handleDkgOutcome (sectionAuth : G.sections.Sap) (participantIndex : Nat)
    (secretKeyShare : G.SecretKeyShare)

/-- The part of `MyNode` that key generation uses. -/
structure DkgNode (G : DkgScheme) where
  keypair : G.Keypair
  knowledge : NetworkKnowledge G.sections
  dkgVoter : DkgVoter G := {}

namespace DkgNode

def name (self : DkgNode G) : XorName := G.nameOf self.keypair

abbrev Result (G : DkgScheme) : Type := Except (DkgError G) (List (DkgCmd G))

/-- `MyNode::dkg_start`, with the key that is drawn. -/
def dkgStart (self : DkgNode G) (sessionId : G.SessionId) (sectionSig : SectionSig G.toKeyScheme)
    (newSecretKey : G.SecretKey) : Result G × DkgNode G :=
  match sessionId.elderIndex self.name with
  | none => (.ok [], self)
  | some _ =>
    let currentChainLen := self.knowledge.sectionChain.keys.length
    if sessionId.sectionChainLen < currentChainLen then (.ok [], self)
    else
      match self.dkgVoter.genEphemeralKey sessionId self.name self.keypair newSecretKey with
      | (.ok (ephemeralPubKey, sig), dkgVoter) =>
        (.ok [.broadcastDkgEphemeralPubKey sessionId sectionSig ephemeralPubKey sig],
          { self with dkgVoter })
      | (.error .dkgEphemeralKeyAlreadyGenerated, dkgVoter) => (.ok [], { self with dkgVoter })
      | (.error error, dkgVoter) => (.error error, { self with dkgVoter })

structure KeyMsg (G : DkgScheme) where
  sessionId : G.SessionId
  sectionAuth : SectionSig G.toKeyScheme
  pubKey : G.PublicKey
  sig : G.EdSignature
  sender : NodeId G.SocketAddr

/-- `MyNode::handle_missed_dkg_start`, which handles the key again once the session has started. -/
def handleMissedDkgStart (again : DkgNode G → Option (Result G × DkgNode G)) (self : DkgNode G)
    (msg : KeyMsg G) (newSecretKey : G.SecretKey) : Option (Result G × DkgNode G) :=
  match G.serializeSession msg.sessionId with
  | none => some (.error .bincode, self)
  | some serializedSessionId =>
    if self.knowledge.sectionKey ≠ msg.sectionAuth.publicKey then some (.ok [], self)
    else if !msg.sectionAuth.verify serializedSessionId then some (.ok [], self)
    else
      match self.dkgStart msg.sessionId msg.sectionAuth newSecretKey with
      | (.error error, self) => some (.error error, self)
      | (.ok cmds, self) =>
        match again self with
        | none => none
        | some (.error error, self) => some (.error error, self)
        | some (.ok more, self) => some (.ok (cmds ++ more), self)

/-- `MyNode::handle_dkg_ephemeral_pubkey`, if it returns within some calls of itself. -/
def handleDkgEphemeralPubkey (fuel : Nat) (self : DkgNode G) (msg : KeyMsg G)
    (newSecretKey : G.SecretKey) : Option (Result G × DkgNode G) :=
  match fuel with
  | 0 => none
  | fuel + 1 =>
    match msg.sessionId.elderIndex self.name with
    | none => some (.ok [], self)
    | some ourId =>
      match self.dkgVoter.tryInitDkg msg.sessionId ourId msg.pubKey msg.sig msg.sender.name with
      | (.error (.noDkgKeysForSession _), dkgVoter) =>
        handleMissedDkgStart (fun self => self.handleDkgEphemeralPubkey fuel msg newSecretKey)
          { self with dkgVoter } msg newSecretKey
      | (.error _, dkgVoter) => some (.ok [], { self with dkgVoter })
      | (.ok none, dkgVoter) => some (.ok [], { self with dkgVoter })
      | (.ok (some (vote, pubKeys)), dkgVoter) =>
        some (.ok [.broadcastDkgVotes msg.sessionId pubKeys ourId [vote]], { self with dkgVoter })

/-- `MyNode::handle_vote_response` — commands, and those that ask for what we miss. -/
def handleVoteResponse (sessionId : G.SessionId) (pubKeys : DkgPubKeys G)
    (sender : NodeId G.SocketAddr) (ourId : Nat) :
    DkgVoteResponse G.DkgSignedVote G.PublicKeySet G.SecretKeyShare → List (DkgCmd G) × List (DkgCmd G)
  | .waitingForMoreVotes => ([], [])
  | .requestAntiEntropy => ([], [.requestDkgAe sessionId sender])
  | .broadcastVote vote => ([.broadcastDkgVotes sessionId pubKeys ourId [vote]], [])
  | .dkgComplete newPubs newSec =>
    ([.handleDkgOutcome (NodeScheme.fromDkgSession sessionId newPubs) ourId newSec], [])

def gossipMissingVotes (self : DkgVoter G) (sessionId : G.SessionId) (sender : NodeId G.SocketAddr)
    (theirVotesLen : Nat) : Except (DkgError G) (List (DkgCmd G)) :=
  match self.getAllVotes sessionId with
  | .error error => .error error
  | .ok ourVotes =>
    if theirVotesLen < ourVotes.length then
      match self.getDkgKeys sessionId with
      | .error error => .error error
      | .ok pubKeys => .ok [.gossipDkgVotes sessionId pubKeys ourVotes sender]
    else .ok []

structure Handled (G : DkgScheme) where
  dkgVoter : DkgVoter G
  cmds : List (DkgCmd G)
  aeCmds : List (DkgCmd G) := []
  isOldGossip : Bool := true

/-- One vote of the loop of `MyNode::handle_dkg_votes`. -/
def handleOneVote (sessionId : G.SessionId) (pubKeys : DkgPubKeys G) (sender : NodeId G.SocketAddr)
    (ourId : Nat) (before : Handled G) (vote : G.DkgSignedVote) : Handled G :=
  match before.dkgVoter.handleDkgVote sessionId vote with
  | (.error _, dkgVoter) => { before with dkgVoter }
  | (.ok responses, dkgVoter) =>
    let answers := responses.map (handleVoteResponse sessionId pubKeys sender ourId)
    { dkgVoter
      cmds := before.cmds ++ answers.flatMap (·.1)
      aeCmds := before.aeCmds ++ answers.flatMap (·.2)
      isOldGossip := before.isOldGossip && responses.isEmpty }

structure VotesMsg (G : DkgScheme) where
  sessionId : G.SessionId
  pubKeys : DkgPubKeys G
  votes : List G.DkgSignedVote
  sender : NodeId G.SocketAddr

/-- The part of `MyNode::handle_dkg_votes` after the keys were checked. -/
def handleCheckedVotes (msg : VotesMsg G) (ourId : Nat) (start : Handled G) :
    List (DkgCmd G) × DkgVoter G :=
  let handled := msg.votes.foldl (handleOneVote msg.sessionId msg.pubKeys msg.sender ourId) start
  -- ae is not necessary if we have votes or termination cmds
  let cmds := if handled.cmds.isEmpty then handled.aeCmds else handled.cmds
  -- if their un-interesting gossip is missing votes, send them ours
  let manualAe := if handled.isOldGossip ∧ msg.votes.length ≠ 1 then
    (gossipMissingVotes handled.dkgVoter msg.sessionId msg.sender msg.votes.length).toOption.getD []
    else []
  (cmds ++ manualAe, handled.dkgVoter)

def handleDkgVotes (self : DkgNode G) (msg : VotesMsg G) : Result G × DkgNode G :=
  match msg.sessionId.elderIndex self.name with
  | none => (.ok [], self)
  | some ourId =>
    match self.dkgVoter.checkKeys msg.sessionId msg.pubKeys with
    | (.error error, dkgVoter) => (.error error, { self with dkgVoter })
    | (.ok (_, false), dkgVoter) =>
      let (cmds, dkgVoter) := handleCheckedVotes msg ourId { dkgVoter, cmds := [] }
      (.ok cmds, { self with dkgVoter })
    | (.ok (pubKeys, true), dkgVoter) =>
      match dkgVoter.initializeDkgState msg.sessionId ourId with
      | (.error error, dkgVoter) => (.error error, { self with dkgVoter })
      | (.ok (firstVote, _), dkgVoter) =>
        let (cmds, dkgVoter) := handleCheckedVotes msg ourId
          { dkgVoter, cmds := [.broadcastDkgVotes msg.sessionId pubKeys ourId [firstVote]] }
        (.ok cmds, { self with dkgVoter })

/-! ## Handling a key again -/

section

variable {before : DkgVoter G} {sessionId missing : G.SessionId} {key : G.PublicKey}
  {sig : G.EdSignature} {owner : XorName} {ourId : Nat}

end

variable {before : DkgNode G} {msg : KeyMsg G} {secretKey : G.SecretKey} {motive : DkgNode G → Prop}
  {result : Result G} {after : DkgNode G}

section

variable (starts : ∀ node, motive node → motive (node.dkgStart msg.sessionId msg.sectionAuth secretKey).2)
include starts

theorem handleMissedDkgStart_keeps
    {again : DkgNode G → Option (Result G × DkgNode G)} (holds : motive before)
    (kept : ∀ node, motive node → ∀ result after, again node = some (result, after) → motive after) (returns : handleMissedDkgStart again before msg secretKey = some (result, after)) : motive after := by
  rw [handleMissedDkgStart] at returns
  split at returns
  · obtain ⟨-, rfl⟩ := Prod.mk.inj (Option.some.inj returns)
    exact holds
  · split_ifs at returns
    · obtain ⟨-, rfl⟩ := Prod.mk.inj (Option.some.inj returns)
      exact holds
    · obtain ⟨-, rfl⟩ := Prod.mk.inj (Option.some.inj returns)
      exact holds
    · have started := starts before holds
      generalize before.dkgStart msg.sessionId msg.sectionAuth secretKey = outcome at started returns
      obtain ⟨error | cmds, node⟩ := outcome
      · obtain ⟨-, rfl⟩ := Prod.mk.inj (Option.some.inj returns)
        exact started
      · dsimp only at returns
        split at returns
        · cases returns
        · rename_i later
          obtain ⟨-, rfl⟩ := Prod.mk.inj (Option.some.inj returns)
          exact kept node started _ _ later
        · rename_i later
          obtain ⟨-, rfl⟩ := Prod.mk.inj (Option.some.inj returns)
          exact kept node started _ _ later

theorem handleDkgEphemeralPubkey_keeps
    (tries : ∀ node ourId, motive node → msg.sessionId.elderIndex node.name = some ourId →
      motive { node with dkgVoter := (node.dkgVoter.tryInitDkg msg.sessionId ourId msg.pubKey msg.sig
        msg.sender.name).2 })
    (fuel : Nat) (holds : motive before) (returns : before.handleDkgEphemeralPubkey fuel msg secretKey = some (result, after)) :
    motive after := by
  -- The handler calls itself after the session was started.
  induction fuel generalizing before result after with
  | zero => cases returns
  | succ fuel ih =>
    rw [handleDkgEphemeralPubkey] at returns
    cases index : msg.sessionId.elderIndex before.name with
    | none =>
      rw [index] at returns
      obtain ⟨-, rfl⟩ := Prod.mk.inj (Option.some.inj returns)
      exact holds
    | some ourId =>
      rw [index] at returns
      have tried := tries before ourId holds index
      dsimp only at returns
      generalize before.dkgVoter.tryInitDkg msg.sessionId ourId msg.pubKey msg.sig msg.sender.name =
        outcome at tried returns
      split at returns
      · exact handleMissedDkgStart_keeps starts tried (fun node holds _ _ again => ih holds again) returns
      all_goals
        obtain ⟨-, rfl⟩ := Prod.mk.inj (Option.some.inj returns)
        exact tried

end

/-! ## Events -/

inductive Event (G : DkgScheme) where
  | dkgStart (sessionId : G.SessionId) (sectionSig : SectionSig G.toKeyScheme)
    (newSecretKey : G.SecretKey)
  | dkgEphemeralPubkey (msg : KeyMsg G) (newSecretKey : G.SecretKey)
  | dkgVotes (msg : VotesMsg G)
  | learn (knowledge : NetworkKnowledge G.sections)

/-- The node after a call. Handling a key calls itself at most once, or does not return. -/
def step (before : DkgNode G) : Event G → DkgNode G
  | .dkgStart sessionId sectionSig newSecretKey =>
    (before.dkgStart sessionId sectionSig newSecretKey).2
  | .dkgEphemeralPubkey msg newSecretKey =>
    ((before.handleDkgEphemeralPubkey 2 msg newSecretKey).map (·.2)).getD before
  | .dkgVotes msg => (before.handleDkgVotes msg).2
  | .learn knowledge => { before with knowledge }

end DkgNode

end SafeNetwork
