import SafeNetwork.Messaging.WireMsg
import SafeNetwork.Node.AntiEntropy

/-!
# Routing of messages at a node

`node/messaging/mod.rs`: a message that shows no entropy is handled by the node itself when it comes from a
member, is addressed to the node's own name or has the flag of a spend. Any other message of a client is
forwarded to the holders of the data it is about (`node/messaging/data.rs`).
-/

namespace SafeNetwork

open Std

/-! ## Messages -/

namespace MsgKind

variable {ClientAuth : Type}

def isAeMsg : MsgKind ClientAuth → Bool
  | .antiEntropy _ => true
  | _ => false

def isClientSpend : MsgKind ClientAuth → Bool
  | .client _ isSpend _ => isSpend
  | _ => false

def queryIndex : MsgKind ClientAuth → Option UInt64
  | .client _ _ queryIndex => queryIndex
  | _ => none

end MsgKind

/-- What is read of the payloads of messages, what is known of the participants, and the distances and the
number of copies that decide who holds data. -/
structure NetworkScheme extends WireScheme where
  ClientMsg : Type
  NodeMsg : Type
  DataResponse : Type
  SocketAddr : Type
  Participant : Type
  SendStream : Type
  [decidableAddr : DecidableEq SocketAddr]
  [transOrdNodeId : TransOrd NodeId]
  nodeName : NodeId → XorName
  nodeAddr : NodeId → SocketAddr
  participantAddr : Participant → SocketAddr
  /-- `XorName::cmp_distance` — compares the distances of two names to the first one. -/
  cmpNames : XorName → XorName → XorName → Ordering
  dataCopyCount : Nat
  /-- `PublicKey::verify` of the signature of a client over a payload. -/
  verifyClient : ClientAuth → List UInt8 → Bool
  /-- `rmp_serde::from_slice` for a message of a client. -/
  decodeClientMsg : List UInt8 → Except String ClientMsg
  /-- `rmp_serde::from_slice` for a message of a node. -/
  decodeNodeMsg : List UInt8 → Except String NodeMsg
  /-- `rmp_serde::from_slice` for a response. -/
  decodeDataResponse : List UInt8 → Except String DataResponse
  /-- `rmp_serde::from_slice` for `AntiEntropyMsg`: an update with its kind, or a probe with a key. -/
  decodeAntiEntropy : List UInt8 → Except String
    (SectionTreeUpdate toSectionScheme × AntiEntropyKind toSectionScheme ⊕ PublicKey)

attribute [instance] NetworkScheme.decidableAddr NetworkScheme.transOrdNodeId

inductive NetworkMsg (N : NetworkScheme) where
  | antiEntropy (update : SectionTreeUpdate N.toSectionScheme) (kind : AntiEntropyKind N.toSectionScheme)
  | probe (sectionKey : N.PublicKey)
  | client (auth : N.ClientAuth) (msg : N.ClientMsg)
  | dataResponse (msg : N.DataResponse)
  | node (msg : N.NodeMsg)

variable {N : NetworkScheme}

/-- `AuthorityProof::verify` for `ClientAuth` — the authority itself when its signature is valid. -/
def NetworkScheme.verifyAuthority (N : NetworkScheme) (auth : N.ClientAuth) (payload : List UInt8) :
    Except MessagingError N.ClientAuth :=
  if N.verifyClient auth payload then .ok auth else .error .invalidSignature

def WireMsg.intoMsg (self : WireMsg N.messages) : Except MessagingError (NetworkMsg N) :=
  match self.kind with
  | .antiEntropy _ =>
    match N.decodeAntiEntropy self.payload with
    | .error err => .error (.failedToParse s!"Ae message payload as Msgpack: {err}")
    | .ok (.inl (update, kind)) => .ok (.antiEntropy update kind)
    | .ok (.inr sectionKey) => .ok (.probe sectionKey)
  | .client auth _ _ =>
    match N.decodeClientMsg self.payload with
    | .error err => .error (.failedToParse s!"Data message payload as Msgpack: {err}")
    | .ok msg =>
      match N.verifyAuthority auth self.payload with
      | .error error => .error error
      | .ok auth => .ok (.client auth msg)
  | .dataResponse _ =>
    match N.decodeDataResponse self.payload with
    | .error err => .error (.failedToParse s!"Data message payload as Msgpack: {err}")
    | .ok msg => .ok (.dataResponse msg)
  | .node _ _ =>
    match N.decodeNodeMsg self.payload with
    | .error err => .error (.failedToParse s!"Node signed message payload as Msgpack: {err}")
    | .ok msg => .ok (.node msg)

/-! ## Commands -/

/-- The part of `NodeContext` that routing uses. -/
structure RoutingContext (N : NetworkScheme) where
  name : XorName
  isElder : Bool
  networkKnowledge : NetworkKnowledge N.toSectionScheme
  /-- `NetworkKnowledge::members`, in the order of the set. -/
  members : List N.NodeId

/-- The commands that a message leads to. Those that carry the message itself have it as a parameter. -/
inductive RoutedCmd (N : NetworkScheme) (Msg : Type) where
  /-- `generate_anti_entropy_cmds` for a message. -/
  | antiEntropy (wireMsg : Msg) (sender : N.Participant) (update : SectionTreeUpdate N.toSectionScheme)
    (kind : AntiEntropyKind N.toSectionScheme) (sendStream : Option N.SendStream)
  | sendAndForwardResponseToClient (wireMsg : Msg) (targets : ExtTreeSet N.NodeId)
    (clientStream : N.SendStream) (clientId : N.Participant)
  /-- `DataError::InsufficientNodeCount`, sent to the client. -/
  | insufficientNodeCount (ourPrefix : Prefix) (expected found : UInt8) (correlationId : N.MsgId)
    (clientStream : N.SendStream) (clientId : N.Participant)
  | processNodeMsg (msgId : N.MsgId) (msg : N.NodeMsg) (sender : N.Participant)
    (sendStream : Option N.SendStream)
  | processClientMsg (msgId : N.MsgId) (msg : N.ClientMsg) (auth : N.ClientAuth) (clientId : N.Participant)
    (sendStream : Option N.SendStream)
  | processAeMsg (msgId : N.MsgId) (update : SectionTreeUpdate N.toSectionScheme)
    (kind : AntiEntropyKind N.toSectionScheme) (sender : N.Participant)
  /-- `MyNode::send_ae_update_to_nodes` for a probe. -/
  | sendAeUpdate (recipient : N.Participant) (sectionKey : N.PublicKey)

def RoutedCmd.map {Msg Other : Type} (f : Msg → Other) : RoutedCmd N Msg → RoutedCmd N Other
  | .antiEntropy wireMsg sender update kind sendStream =>
    .antiEntropy (f wireMsg) sender update kind sendStream
  | .sendAndForwardResponseToClient wireMsg targets clientStream clientId =>
    .sendAndForwardResponseToClient (f wireMsg) targets clientStream clientId
  | .insufficientNodeCount ourPrefix expected found correlationId clientStream clientId =>
    .insufficientNodeCount ourPrefix expected found correlationId clientStream clientId
  | .processNodeMsg msgId msg sender sendStream => .processNodeMsg msgId msg sender sendStream
  | .processClientMsg msgId msg auth clientId sendStream =>
    .processClientMsg msgId msg auth clientId sendStream
  | .processAeMsg msgId update kind sender => .processAeMsg msgId update kind sender
  | .sendAeUpdate recipient sectionKey => .sendAeUpdate recipient sectionKey

/-- The errors of `handle_msg`. -/
inductive RoutingError (N : NetworkScheme) where
  | entropy (error : NodeError N.messages)
  | noClientResponseStream

namespace RoutingContext

variable (context : RoutingContext N)

/-- `MyNode::target_data_holders` — the members closest to a name, or the one of them at an index. -/
def targetDataHolders (target : XorName) (queryIndex : Option UInt64) : ExtTreeSet N.NodeId :=
  let closest := (context.members.mergeSort fun lhs rhs =>
    (N.cmpNames target (N.nodeName lhs) (N.nodeName rhs)).isLE).take N.dataCopyCount
  let candidates := closest.zipIdx.filter fun candidate =>
    match queryIndex with
    | some index => candidate.2 == index.toNat
    | none => true
  ExtTreeSet.ofList (candidates.map Prod.fst)

def forwardDataAndRespondToClient (wireMsg : WireMsg N.messages) (clientId : N.Participant)
    (clientStream : N.SendStream) : RoutedCmd N (WireMsg N.messages) :=
  let msgId := wireMsg.msgId
  let queryIndex := wireMsg.kind.queryIndex
  let targets := context.targetDataHolders wireMsg.dst.name queryIndex
  let ourPrefix := context.networkKnowledge.ourPrefix
  match queryIndex with
  | none =>
    if N.dataCopyCount > targets.size then
      .insufficientNodeCount ourPrefix (.ofNat N.dataCopyCount) (.ofNat targets.size) msgId
        clientStream clientId
    else .sendAndForwardResponseToClient wireMsg targets clientStream clientId
  | some index =>
    if targets.isEmpty then
      .insufficientNodeCount ourPrefix (.ofNat (index.toNat + 1)) (.ofNat context.members.length) msgId
        clientStream clientId
    else .sendAndForwardResponseToClient wireMsg targets clientStream clientId

/-- `is_for_us`: sent by a member, addressed to us or a spend. -/
def isForUs (sender : N.Participant) (wireMsg : WireMsg N.messages) : Bool :=
  (context.members.any fun member => N.nodeAddr member = N.participantAddr sender) ||
    wireMsg.dst.name = context.name ||
    wireMsg.kind.isClientSpend

/-- The end of `MyNode::handle_msg`: the message is ours to process. -/
def processMsg (sender : N.Participant) (wireMsg : WireMsg N.messages)
    (sendStream : Option N.SendStream) : List (RoutedCmd N (WireMsg N.messages)) :=
  let msgId := wireMsg.msgId
  match wireMsg.intoMsg with
  | .error _ => []
  | .ok (.node msg) => [.processNodeMsg msgId msg sender sendStream]
  | .ok (.client auth msg) => [.processClientMsg msgId msg auth sender sendStream]
  | .ok (.antiEntropy update kind) => [.processAeMsg msgId update kind sender]
  | .ok (.probe sectionKey) => if context.isElder then [.sendAeUpdate sender sectionKey] else []
  | .ok (.dataResponse _) => []

/-- The part of `MyNode::handle_msg` after the entropy check. -/
def routeMsg (sender : N.Participant) (wireMsg : WireMsg N.messages)
    (sendStream : Option N.SendStream) :
    Except (RoutingError N) (List (RoutedCmd N (WireMsg N.messages))) :=
  if context.isForUs sender wireMsg then .ok (context.processMsg sender wireMsg sendStream)
  else
    match wireMsg.kind with
    | .client _ _ _ =>
      match sendStream with
      | none => .error .noClientResponseStream
      | some stream => .ok [context.forwardDataAndRespondToClient wireMsg sender stream]
    | _ => .ok (context.processMsg sender wireMsg sendStream)

def handleMsg (sender : N.Participant) (wireMsg : WireMsg N.messages)
    (sendStream : Option N.SendStream) :
    Except (RoutingError N) (List (RoutedCmd N (WireMsg N.messages))) :=
  if wireMsg.kind.isAeMsg then
    context.routeMsg sender wireMsg sendStream
  else
    match checkForEntropy context.isElder wireMsg context.networkKnowledge with
    | .error error => .error (.entropy error)
    | .ok (some (update, kind)) => .ok [.antiEntropy wireMsg sender update kind sendStream]
    | .ok none => context.routeMsg sender wireMsg sendStream

end RoutingContext

/-! ## What routing depends on -/

/-- A message but for the key it is sent under and the bytes that are kept. -/
structure MsgContent (W : WireScheme) where
  msgId : W.MsgId
  kind : MsgKind W.ClientAuth
  payload : List UInt8
  name : XorName

def WireMsg.content {W : WireScheme} (self : WireMsg W.messages) : MsgContent W :=
  ⟨self.msgId, self.kind, self.payload, self.dst.name⟩

namespace RoutingContext

variable {context : RoutingContext N} {sender : N.Participant} {sendStream : Option N.SendStream}
  {one other : WireMsg N.messages}

section

variable (same : one.content = other.content)
include same

theorem intoMsg_content : one.intoMsg = other.intoMsg := by
  obtain ⟨-, kinds, payloads, -⟩ := MsgContent.mk.inj same
  rw [WireMsg.intoMsg, WireMsg.intoMsg, kinds, payloads]

theorem processMsg_content :
    context.processMsg sender one sendStream = context.processMsg sender other sendStream := by
  obtain ⟨msgIds, -, -, -⟩ := MsgContent.mk.inj same
  rw [processMsg, processMsg, intoMsg_content same, msgIds]

theorem forwardData_content {clientStream : N.SendStream} :
    (context.forwardDataAndRespondToClient one sender clientStream).map WireMsg.content =
      (context.forwardDataAndRespondToClient other sender clientStream).map WireMsg.content := by
  obtain ⟨msgIds, kinds, -, names⟩ := MsgContent.mk.inj same
  simp only [forwardDataAndRespondToClient, msgIds, kinds, names]
  split
  · split
    · rfl
    · simp only [RoutedCmd.map, same]
  · split
    · rfl
    · simp only [RoutedCmd.map, same]

theorem routeMsg_content :
    (context.routeMsg sender one sendStream).map (List.map (RoutedCmd.map WireMsg.content)) =
      (context.routeMsg sender other sendStream).map (List.map (RoutedCmd.map WireMsg.content)) := by
  obtain ⟨-, kinds, -, names⟩ := MsgContent.mk.inj same
  have processed : context.processMsg sender one sendStream =
    context.processMsg sender other sendStream := processMsg_content same
  have ours : context.isForUs sender one = context.isForUs sender other := by
    rw [isForUs, isForUs, kinds, names]
  simp only [routeMsg, ours, kinds, processed]
  cases context.isForUs sender other with
  | true => rfl
  | false =>
    cases other.kind with
    | client auth isSpend queryIndex =>
      cases sendStream with
      | none => rfl
      | some stream => exact congrArg (fun cmd => Except.ok [cmd]) (forwardData_content same)
    | _ => rfl

end

/-- What a node does with a message, but for the key that the message is forwarded under. -/
def treatment (context : RoutingContext N) (sender : N.Participant) (wireMsg : WireMsg N.messages)
    (sendStream : Option N.SendStream) :
    Except (RoutingError N) (List (RoutedCmd N (MsgContent N.toWireScheme))) :=
  (context.handleMsg sender wireMsg sendStream).map (List.map (RoutedCmd.map WireMsg.content))

theorem handleMsg_of_none (none : checkForEntropy context.isElder one context.networkKnowledge = .ok none) :
    context.handleMsg sender one sendStream = context.routeMsg sender one sendStream := by
  rw [handleMsg, none]
  split
  · rfl
  · rfl

theorem treatment_content (same : one.content = other.content)
    (oneNone : checkForEntropy context.isElder one context.networkKnowledge = .ok none)
    (otherNone : checkForEntropy context.isElder other context.networkKnowledge = .ok none) :
    context.treatment sender one sendStream = context.treatment sender other sendStream := by
  rw [treatment, treatment, handleMsg_of_none oneNone, handleMsg_of_none otherNone]
  exact routeMsg_content same

end RoutingContext

end SafeNetwork
