import SafeNetwork.Node.HandleMsg

/-!
# Resending after anti-entropy

`sn_client/src/sessions/listeners.rs`: an elder that answers a client with an anti-entropy message sends the
client's own message back in it. The client updates its network knowledge, reads the message that came back,
looks for the elders closest to its destination and sends a message rebuilt from its parts to one of them,
under the key of the section it knows now. This may happen again and again.

The message is rebuilt with the id, the payload, the authority and the query index it had, and for the same
name. The flag of a spend is not taken over: it is always off.
-/

namespace SafeNetwork

open Std

variable {N : NetworkScheme}

/-- The errors of `handle_ae_msg` up to the sending. -/
inductive ResendError (N : NetworkScheme) where
  | messaging (error : MessagingError)
  | unexpectedNetworkMsg (correlationId : N.MsgId) (nodeId : N.NodeId) (msg : NetworkMsg N)
  | noCloseSapFound (name : XorName)
  | antiEntropyNoSapElders

/-- What `new_target_elders` returns. -/
structure NewTargets (N : NetworkScheme) where
  msgId : N.MsgId
  elders : List N.NodeId
  queryIndex : Option UInt64
  payload : List UInt8
  dst : Dst N.toKeyScheme
  auth : N.ClientAuth

/-- `Session::new_target_elders`, `none` when reading the message panics. -/
def newTargetElders (network : SectionTree N.toSectionScheme) (srcNode : N.NodeId)
    (bouncedMsg : UsrMsgBytes) (correlationId : N.MsgId) :
    Option (Except (ResendError N) (NewTargets N)) :=
  match WireMsg.fromBytes (W := N.toWireScheme) bouncedMsg with
  | none => none
  | some (.error error) => some (.error (.messaging error))
  | some (.ok wireMsg) =>
    match wireMsg.intoMsg with
    | .error error => some (.error (.messaging error))
    | .ok (.client auth _) =>
      match network.closest wireMsg.dst.name none with
      | none => some (.error (.noCloseSapFound wireMsg.dst.name))
      | some bestSap =>
        let targetElders := bestSap.value.elders.toList
        if targetElders.isEmpty then some (.error .antiEntropyNoSapElders)
        else
          some (.ok ⟨wireMsg.msgId, targetElders, wireMsg.kind.queryIndex, wireMsg.payload,
            ⟨wireMsg.dst.name, bestSap.sectionKey⟩, auth⟩)
    | .ok msg => some (.error (.unexpectedNetworkMsg correlationId srcNode msg))

/-- `Session::handle_ae_msg` up to the sending, with the network knowledge after it: the elder, the message
and its bytes. A failed update of the knowledge is logged and no more. -/
def handleAeMsg (network : SectionTree N.toSectionScheme)
    (sectionTreeUpdate : SectionTreeUpdate N.toSectionScheme) (bouncedMsg : UsrMsgBytes)
    (srcNode : N.NodeId) (srcNodeIndex : Nat) (correlationId : N.MsgId) :
    Option (Except (ResendError N) (N.NodeId × WireMsg N.messages × UsrMsgBytes)) ×
      SectionTree N.toSectionScheme :=
  let network := (network.updateTheSectionTree sectionTreeUpdate).2
  match newTargetElders network srcNode bouncedMsg correlationId with
  | none => (none, network)
  | some (.error error) => (some (.error error), network)
  | some (.ok targets) =>
    let orderedElders := targets.elders.mergeSort fun lhs rhs =>
      (N.cmpNames targets.dst.name (N.nodeName lhs) (N.nodeName rhs)).isLE
    -- deterministically sent to closest elder based upon the initial sender index
    match orderedElders[srcNodeIndex]? with
    | none => (some (.error .antiEntropyNoSapElders), network)
    | some elder =>
      let wireMsg : WireMsg N.messages := WireMsg.newMsg targets.msgId targets.payload
        (.client targets.auth false targets.queryIndex) targets.dst
      match wireMsg.serialize with
      | .error error => (some (.error (.messaging error)), network)
      | .ok bytes => (some (.ok (elder, wireMsg, bytes)), network)

/-! ## A chain of bounces -/

def Arrives (msg received : WireMsg N.messages) : Prop :=
  ∃ bytes, msg.serialize = .ok bytes ∧ WireMsg.fromBytes (W := N.toWireScheme) bytes = some (.ok received)

/-- A node answers a message of a client with an anti-entropy message, for which the client sends another
one. What the node and the client know is arbitrary. -/
inductive Bounced (msg : WireMsg N.messages) : WireMsg N.messages → Prop where
  | resent {received resent : WireMsg N.messages} {isElder : Bool}
    {knowledge : NetworkKnowledge N.toSectionScheme} {update : SectionTreeUpdate N.toSectionScheme}
    {kind : AntiEntropyKind N.toSectionScheme} {bouncedMsg bytes : UsrMsgBytes}
    {network after : SectionTree N.toSectionScheme} {srcNode elder : N.NodeId} {srcNodeIndex : Nat}
    {correlationId : N.MsgId} (arrives : Arrives msg received)
    (answered : checkForEntropy isElder received knowledge = .ok (some (update, kind)))
    (back : kind = .retry bouncedMsg ∨ kind = .redirect bouncedMsg)
    (handled : handleAeMsg network update bouncedMsg srcNode srcNodeIndex correlationId =
      (some (.ok (elder, resent, bytes)), after)) : Bounced msg resent

variable {msg received resent : WireMsg N.messages} {bouncedMsg bytes : UsrMsgBytes}
  {network after : SectionTree N.toSectionScheme} {update : SectionTreeUpdate N.toSectionScheme}
  {kind : AntiEntropyKind N.toSectionScheme} {srcNode elder : N.NodeId} {srcNodeIndex : Nat}
  {correlationId : N.MsgId} {targets : NewTargets N}

theorem kind_of_intoMsg {auth : N.ClientAuth} {content : N.ClientMsg}
    (read : msg.intoMsg = .ok (.client auth content)) :
    ∃ isSpend, msg.kind = .client auth isSpend msg.kind.queryIndex := by
  rw [WireMsg.intoMsg] at read
  cases kinds : msg.kind with
  | client sender isSpend queryIndex =>
    rw [kinds] at read
    dsimp only at read
    split at read
    · cases read
    · split at read
      · cases read
      · rename_i verified
        obtain ⟨rfl, -⟩ := NetworkMsg.client.inj (Except.ok.inj read)
        rw [NetworkScheme.verifyAuthority] at verified
        split at verified
        · obtain rfl := Except.ok.inj verified
          exact ⟨isSpend, rfl⟩
        · cases verified
  | antiEntropy name =>
    rw [kinds] at read
    dsimp only at read
    split at read <;> cases read
  | dataResponse name =>
    rw [kinds] at read
    dsimp only at read
    split at read <;> cases read
  | node name isJoin =>
    rw [kinds] at read
    dsimp only at read
    split at read <;> cases read

theorem newTargetElders_content
    (found : newTargetElders network srcNode bouncedMsg correlationId = some (.ok targets)) :
    ∃ (msg : WireMsg N.messages) (isSpend : Bool),
      WireMsg.fromBytes (W := N.toWireScheme) bouncedMsg = some (.ok msg) ∧
      msg.content = ⟨targets.msgId, .client targets.auth isSpend targets.queryIndex, targets.payload,
        targets.dst.name⟩ := by
  rw [newTargetElders] at found
  split at found
  · cases found
  · cases found
  · rename_i msg read
    split at found
    · cases found
    · rename_i auth content parsed
      split at found
      · cases found
      · dsimp only at found
        split at found
        · cases found
        · obtain rfl := Except.ok.inj (Option.some.inj found)
          obtain ⟨isSpend, kinds⟩ := kind_of_intoMsg parsed
          refine ⟨msg, isSpend, read, ?_⟩
          rw [WireMsg.content, kinds]
          rfl
    · cases found

theorem handleAeMsg_content (handled : handleAeMsg network update bouncedMsg srcNode srcNodeIndex correlationId =
      (some (.ok (elder, resent, bytes)), after)) :
    ∃ (msg : WireMsg N.messages) (auth : N.ClientAuth) (isSpend : Bool) (queryIndex : Option UInt64),
      WireMsg.fromBytes (W := N.toWireScheme) bouncedMsg = some (.ok msg) ∧
      msg.kind = .client auth isSpend queryIndex ∧ resent.Sound ∧
      resent.content = ⟨msg.msgId, .client auth false queryIndex, msg.payload, msg.dst.name⟩ := by
  simp only [handleAeMsg] at handled
  split at handled
  · cases handled
  · cases handled
  · rename_i targets found
    split at handled
    · cases handled
    · split at handled
      · cases handled
      · obtain ⟨msg, isSpend, read, content⟩ := newTargetElders_content found
        obtain ⟨msgIds, kinds, payloads, names⟩ := MsgContent.mk.inj content
        obtain ⟨sent, -⟩ := Prod.mk.inj handled
        obtain ⟨-, rest⟩ := Prod.mk.inj (Except.ok.inj (Option.some.inj sent))
        obtain ⟨rfl, -⟩ := Prod.mk.inj rest
        refine ⟨msg, targets.auth, isSpend, targets.queryIndex, read, kinds, .newMsg .., ?_⟩
        rw [msgIds, payloads, names]
        rfl

theorem serialize_of_bounced {isElder : Bool} {knowledge : NetworkKnowledge N.toSectionScheme}
    (answered : checkForEntropy isElder received knowledge = .ok (some (update, kind)))
    (back : kind = .retry bouncedMsg ∨ kind = .redirect bouncedMsg) : received.serialize = .ok bouncedMsg := by
  simp only [checkForEntropy] at answered
  cases serialized : received.serialize with
  | error error =>
    rw [serialized] at answered
    split at answered
    · split at answered
      · cases answered
      · split at answered <;> cases answered
    · split at answered <;> cases answered
  | ok bytes =>
    rw [serialized] at answered
    split at answered
    · split at answered
      · cases answered
      · split at answered
        · obtain ⟨-, rfl⟩ := Prod.mk.inj (Option.some.inj (Except.ok.inj answered))
          obtain back | back := back
          · cases back
          · rw [AntiEntropyKind.redirect.inj back]
        · cases answered
    · split at answered
      · cases answered
      · obtain ⟨-, rfl⟩ := Prod.mk.inj (Option.some.inj (Except.ok.inj answered))
        obtain back | back := back
        · rw [AntiEntropyKind.retry.inj back]
        · cases back

theorem Arrives.content (trips : N.RoundTrips) (sound : msg.Sound) (arrives : Arrives msg received) :
    received.Sound ∧ received.content = msg.content := by
  obtain ⟨bytes, serialized, read⟩ := arrives
  rw [WireMsg.serialize_eq_cached] at serialized
  refine ⟨.of_fromBytes read, ?_⟩
  obtain rfl := Except.ok.inj (Option.some.inj
    (read.symm.trans (sound.fromBytes_cached trips serialized)))
  rfl

theorem Bounced.content (trips : N.RoundTrips) (bounced : Bounced msg resent) (sound : msg.Sound) :
    ∃ auth isSpend queryIndex, msg.kind = .client auth isSpend queryIndex ∧ resent.Sound ∧
      resent.content = ⟨msg.msgId, .client auth false queryIndex, msg.payload, msg.dst.name⟩ := by
  obtain ⟨arrives, answered, back, handled⟩ := bounced
  obtain ⟨soundReceived, arrived⟩ := arrives.content trips sound
  obtain ⟨returned, auth, isSpend, queryIndex, read, kinds, soundResent, content⟩ :=
    handleAeMsg_content handled
  -- The message comes back as it arrived, and it arrived as it was sent.
  obtain ⟨-, returns⟩ :=
    Arrives.content trips soundReceived ⟨_, serialize_of_bounced answered back, read⟩
  obtain ⟨msgIds, sameKinds, payloads, names⟩ := MsgContent.mk.inj (returns.trans arrived)
  rw [msgIds, payloads, names] at content
  exact ⟨auth, isSpend, queryIndex, sameKinds.symm.trans kinds, soundResent, content⟩

theorem content_of_bounces (trips : N.RoundTrips) {msgId : N.MsgId} {payload : List UInt8}
    {auth : N.ClientAuth} {isSpend : Bool} {queryIndex : Option UInt64} {dst : Dst N.toKeyScheme}
    (bounces : Relation.TransGen Bounced
      (WireMsg.newMsg msgId payload (.client auth isSpend queryIndex) dst : WireMsg N.messages) resent) :
    resent.Sound ∧ resent.content = ⟨msgId, .client auth false queryIndex, payload, dst.name⟩ := by
  induction bounces with
  | single bounced =>
    obtain ⟨_, _, _, kinds, sound, content⟩ := bounced.content trips (.newMsg ..)
    obtain ⟨rfl, -, rfl⟩ := MsgKind.client.inj kinds
    exact ⟨sound, content⟩
  | tail _ bounced ih =>
    obtain ⟨soundBefore, before⟩ := ih
    obtain ⟨rfl, sameKinds, rfl, names⟩ := MsgContent.mk.inj before
    obtain ⟨_, _, _, kinds, sound, content⟩ := bounced.content trips soundBefore
    obtain ⟨rfl, -, rfl⟩ := MsgKind.client.inj (sameKinds.symm.trans kinds)
    rw [names] at content
    exact ⟨sound, content⟩

/-- A message of a client is bounced any number of times. The message that is sent out then has the id, the
payload, the authority, the flag and the query index of the original and is for the same name, and every
node treats it as it would treat the original when neither shows entropy, exactly when the original does
not have the flag of a spend. -/
theorem resent_preserved_iff (trips : N.RoundTrips) {msgId : N.MsgId} {payload : List UInt8}
    {auth : N.ClientAuth} {isSpend : Bool} {queryIndex : Option UInt64} {dst : Dst N.toKeyScheme}
    {original : WireMsg N.messages}
    (sent : original = WireMsg.newMsg msgId payload (.client auth isSpend queryIndex) dst)
    (bounces : Relation.TransGen Bounced original resent) : (resent.content = original.content ∧
      ∀ (context : RoutingContext N) (sender : N.Participant) (sendStream : Option N.SendStream)
        (first again : WireMsg N.messages), Arrives original first → Arrives resent again →
        checkForEntropy context.isElder first context.networkKnowledge = .ok none →
        checkForEntropy context.isElder again context.networkKnowledge = .ok none →
        context.treatment sender again sendStream = context.treatment sender first sendStream) ↔
      isSpend = false := by
  subst sent
  obtain ⟨sound, content⟩ := content_of_bounces trips bounces
  constructor
  · rintro ⟨same, -⟩
    obtain ⟨-, kinds, -, -⟩ := MsgContent.mk.inj (content.symm.trans same)
    obtain ⟨-, off, -⟩ := MsgKind.client.inj kinds
    exact off.symm
  · rintro rfl
    refine ⟨content, ?_⟩
    intro context sender sendStream first again arrivesFirst arrivesAgain noneFirst noneAgain
    obtain ⟨-, contentFirst⟩ := arrivesFirst.content trips (.newMsg ..)
    obtain ⟨-, contentAgain⟩ := arrivesAgain.content trips sound
    have same : again.content = first.content :=
      contentAgain.trans (content.trans contentFirst.symm)
    exact RoutingContext.treatment_content same noneAgain noneFirst

/-! ## Sample bounces -/

abbrev sampleNetwork : NetworkScheme where
  toWireScheme := sampleWire
  ClientMsg := Unit
  NodeMsg := Unit
  DataResponse := Unit
  SocketAddr := Nat
  Participant := Nat
  SendStream := Unit
  transOrdNodeId := inferInstanceAs (TransOrd Nat)
  nodeName _ := sampleName
  nodeAddr node := node
  participantAddr participant := participant
  cmpNames _ _ _ := .eq
  dataCopyCount := 1
  verifyClient _ _ := true
  decodeClientMsg _ := .ok ()
  decodeNodeMsg _ := .ok ()
  decodeDataResponse _ := .ok ()
  decodeAntiEntropy _ := .ok (.inr (0 : Nat))

/-- The genesis section churns to a section with the elder `5`. -/
def sampleElderChurn : SectionTreeUpdate sampleScheme where
  signedSap := ⟨⟨⟨[]⟩, 1, (∅ : ExtTreeSet Nat).insert 5, ∅, 0⟩, ⟨1, sampleSig 1 1⟩⟩
  proofChain := sampleChurn.proofChain

def sampleSent (isSpend : Bool) : WireMsg sampleNetwork.messages :=
  WireMsg.newMsg (W := sampleWire) true [7] (.client () isSpend none) ⟨sampleName, (0 : Nat)⟩

def sampleResent : WireMsg sampleNetwork.messages :=
  WireMsg.newMsg (W := sampleWire) true [7] (.client () false none) ⟨sampleName, (1 : Nat)⟩

def sampleElder : RoutingContext sampleNetwork where
  name := ⟨List.replicate 256 true, List.length_replicate⟩
  isElder := true
  networkKnowledge := sampleKnowledge.run sampleName [sampleElderChurn]
  members := [(5 : Nat)]

theorem bounced_sampleSent (isSpend : Bool) : Bounced (sampleSent isSpend) sampleResent := by
  obtain ⟨header, dst, serialized⟩ :
    ∃ header dst, (sampleSent isSpend).serialize = .ok (header, dst, [7]) := ⟨_, _, rfl⟩
  obtain ⟨bytes, again⟩ : ∃ bytes, sampleResent.serialize = .ok bytes := ⟨_, rfl⟩
  have sound : WireMsg.Sound (W := sampleWire) (sampleSent isSpend) := .newMsg ..
  have read : WireMsg.fromBytes (W := sampleWire) (header, dst, [7]) =
      some (.ok ⟨(sampleSent isSpend).header, some header, [7], ⟨sampleName, (0 : Nat)⟩, some dst⟩) :=
    sound.fromBytes_cached sampleWire_roundTrips
      ((WireMsg.serialize_eq_cached (W := sampleWire) _).symm.trans serialized)
  have answered : checkForEntropy (M := sampleWire.messages) true ⟨(sampleSent isSpend).header, some header,
      [7], ⟨sampleName, (0 : Nat)⟩, some dst⟩ sampleElder.networkKnowledge =
    .ok (some (sampleElderChurn, .retry (header, dst, [7]))) := rfl
  have found : newTargetElders (N := sampleNetwork) (sampleGenesis.updateTheSectionTree sampleElderChurn).2
      (5 : Nat) (header, dst, [7]) true =
      some (.ok ⟨true, [(5 : Nat)], none, [7], ⟨sampleName, (1 : Nat)⟩, ()⟩) := by
    rw [newTargetElders, read]
    rfl
  have handled : handleAeMsg (N := sampleNetwork) sampleGenesis sampleElderChurn (header, dst, [7]) (5 : Nat)
      0 true = (some (.ok ((5 : Nat), sampleResent, bytes)),
        (sampleGenesis.updateTheSectionTree sampleElderChurn).2) := by
    rw [sampleResent] at again ⊢
    simp only [handleAeMsg, found, List.mergeSort_singleton, List.getElem?_cons_zero, again]
  exact .resent ⟨_, serialized, read⟩ answered (Or.inl rfl) handled

theorem resent_preserved_sampleSent : Relation.TransGen Bounced (sampleSent false) sampleResent ∧
      sampleResent.content = (sampleSent false).content := by
  have bounces := Relation.TransGen.single (bounced_sampleSent false)
  exact ⟨bounces, ((resent_preserved_iff sampleWire_roundTrips rfl bounces).mpr rfl).1⟩

/-- A spend that is bounced once is sent again without its flag: the elder processes the spend, and forwards
the message that is sent again to a holder of data. -/
theorem resent_spend_forwarded : Bounced (sampleSent true) sampleResent ∧
      (sampleSent true).content = ⟨true, .client () true none, [7], sampleName⟩ ∧
      sampleResent.content = ⟨true, .client () false none, [7], sampleName⟩ ∧
      sampleElder.routeMsg (9 : Nat) (sampleSent true) (some ()) =
        .ok [.processClientMsg true () () (9 : Nat) (some ())] ∧
      sampleElder.routeMsg (9 : Nat) sampleResent (some ()) =
        .ok [.sendAndForwardResponseToClient sampleResent (ExtTreeSet.ofList [(5 : Nat)]) () (9 : Nat)] := by
  have other : sampleElder.isForUs (9 : Nat) sampleResent = false := by decide +kernel
  have ours : sampleElder.isForUs (9 : Nat) (sampleSent true) = true := by decide +kernel
  refine ⟨bounced_sampleSent true, rfl, rfl, ?_, ?_⟩
  · rw [RoutingContext.routeMsg, if_pos ours]
    rfl
  · rw [RoutingContext.routeMsg, other]
    have targets : sampleElder.targetDataHolders sampleName none = ExtTreeSet.ofList [(5 : Nat)] := by
      simp only [RoutingContext.targetDataHolders, sampleElder, List.mergeSort_singleton]
      rfl
    have forwarded : sampleElder.forwardDataAndRespondToClient sampleResent (9 : Nat) () =
        .sendAndForwardResponseToClient sampleResent (ExtTreeSet.ofList [(5 : Nat)]) () (9 : Nat) := by
      have index : sampleResent.kind.queryIndex = none := rfl
      have name : sampleResent.dst.name = sampleName := rfl
      simp only [RoutingContext.forwardDataAndRespondToClient, index, name, targets]
      rfl
    exact congrArg (fun cmd => Except.ok [cmd]) forwarded

end SafeNetwork
