import SafeNetwork.Client.Resend
import SafeNetwork.Node.Relocation
import SafeNetwork.Node.SpendFees
import SafeNetwork.Node.StoreData

/-!
# Messages of clients at an elder

What a client sends is routed by flags and a name that the client sets, before its payload is read
(`node/messaging/mod.rs`), and is acted on by its payload (`node/messaging/client_msgs.rs`). Neither checks
the other. The ciphers of a fee and the index of a query are also the client's, and reach a slice of fixed
length and an addition in a byte.
-/

namespace SafeNetwork

open Std FileSystem

/-! ## Messages that are not returned from -/

namespace RoutingContext

variable {N : NetworkScheme} {context : RoutingContext N} {wireMsg : WireMsg N.messages}
  {clientId : N.Participant} {clientStream : N.SendStream}

/-- `MyNode::forward_data_and_respond_to_client` in a build that checks for overflow: an index that is
answered with an error is counted from one in a byte. -/
def forwardDataChecked (context : RoutingContext N) (wireMsg : WireMsg N.messages) (clientId : N.Participant)
    (clientStream : N.SendStream) : Except Panic (RoutedCmd N (WireMsg N.messages)) :=
  match wireMsg.kind.queryIndex with
  | none => .ok (context.forwardDataAndRespondToClient wireMsg clientId clientStream)
  | some index =>
    if (context.targetDataHolders wireMsg.dst.name (some index)).isEmpty ∧ index.toUInt8 = 255 then
      .error .arithmetic
    else .ok (context.forwardDataAndRespondToClient wireMsg clientId clientStream)

theorem filter_zipIdx {α : Type} (list : List α) (index : Nat) :
    (list.zipIdx.filter (·.2 == index)).map Prod.fst = list[index]?.toList := by
  -- The indices of a tail start where it starts.
  have general : ∀ start, ((list.zipIdx start).filter (·.2 == start + index)).map Prod.fst =
      list[index]?.toList := by
    induction list generalizing index with
    | nil => simp
    | cons first rest ih =>
      intro start
      cases index with
      | zero =>
        have later : (rest.zipIdx (start + 1)).filter (·.2 == start) = [] := by
          rw [List.filter_eq_nil_iff]
          intro entry listed same
          have := List.le_snd_of_mem_zipIdx listed
          rw [beq_iff_eq] at same
          omega
        simp [later]
      | succ index =>
        have := ih index (start + 1)
        rw [Nat.add_right_comm, Nat.add_assoc] at this
        simpa using this
  simpa using general 0

theorem isEmpty_targetDataHolders {target : XorName} {index : UInt64} :
    (context.targetDataHolders target (some index)).isEmpty = true ↔
      min N.dataCopyCount context.members.length ≤ index.toNat := by
  simp only [targetDataHolders, filter_zipIdx]
  generalize closest : List.take _ _ = nearest
  have size : nearest.length = min N.dataCopyCount context.members.length := by
    rw [← closest, List.length_take, List.length_mergeSort]
  rw [← size, ← List.getElem?_eq_none_iff]
  cases nearest[index.toNat]? with
  | none => simp
  | some node => simp

theorem forwardDataChecked_returns_iff : (∃ cmd, context.forwardDataChecked wireMsg clientId clientStream = .ok cmd) ↔
      ∀ index, wireMsg.kind.queryIndex = some index → index.toNat % 256 = 255 →
        index.toNat < min N.dataCopyCount context.members.length := by
  have byte : ∀ index : UInt64, index.toUInt8 = 255 ↔ index.toNat % 256 = 255 := by
    intro index
    rw [← UInt8.toNat_inj, UInt64.toNat_toUInt8]
    rfl
  rw [forwardDataChecked]
  cases wireMsg.kind.queryIndex with
  | none => simp
  | some index =>
    simp only [isEmpty_targetDataHolders, byte, Option.some.injEq]
    split
    · rename_i both
      simp only [reduceCtorEq, exists_false, false_iff]
      exact fun all => absurd (all index rfl both.2) (Nat.not_lt.mpr both.1)
    · rename_i fine
      refine iff_of_true ⟨_, rfl⟩ ?_
      rintro _ rfl last
      exact Nat.lt_of_not_le fun small => fine ⟨small, last⟩

end RoutingContext

/-- Reading the ciphers of a fee returns exactly if the plaintext of the index is long enough, when there is
one for us. -/
theorem verifyFee_returns_iff {S : SpendScheme} {storeCost : Token} {rewardSecretKey : S.SecretKey}
    {tx : S.DbcTransaction} {ourName : XorName} {feeCiphers : ExtTreeMap XorName (FeeCiphers S.toDbcScheme)} :
    (∃ result, verifyFee storeCost rewardSecretKey tx ourName feeCiphers = .ok result) ↔
      ∀ ciphers : FeeCiphers S.toDbcScheme, feeCiphers[ourName]? = some ciphers → ∀ bytes,
        S.decrypt rewardSecretKey ciphers.derivationIndex = some bytes → 32 ≤ bytes.length := by
  have returns : ∀ ciphers : FeeCiphers S.toDbcScheme,
      (∃ result, ciphers.decrypt rewardSecretKey = .ok result) ↔ ∀ bytes,
        S.decrypt rewardSecretKey ciphers.derivationIndex = some bytes → 32 ≤ bytes.length := by
    intro ciphers
    rw [FeeCiphers.decrypt, FeeCiphers.decryptDerivationIndex]
    cases S.decrypt rewardSecretKey ciphers.derivationIndex with
    | none => simp
    | some bytes =>
      by_cases short : bytes.length < 32
      · simp [short]
      · simp only [short, if_false, Option.some.injEq, forall_eq', Nat.not_lt.mp short, iff_true]
        split
        · exact ⟨_, rfl⟩
        · split <;> exact ⟨_, rfl⟩
  rw [verifyFee]
  cases feeCiphers[ourName]? with
  | none => simp
  | some ciphers =>
    simp only [Option.some.injEq, forall_eq', ← returns ciphers]
    cases ciphers.decrypt rewardSecretKey with
    | error panic => simp
    | ok result =>
      refine iff_of_true ?_ ⟨_, rfl⟩
      cases result with
      | error error => exact ⟨_, rfl⟩
      | ok found =>
        dsimp only
        split
        · exact ⟨_, rfl⟩
        · split
          · exact ⟨_, rfl⟩
          · split <;> exact ⟨_, rfl⟩

/-- An elder returns from what a client sends exactly if the plaintext of the derivation index that is meant
for it has the length of an index, and an index of a query whose byte is the last one has a holder. -/
theorem clientMsg_returns_iff {S : SpendScheme} {N : NetworkScheme} (storeCost : Token)
    (rewardSecretKey : S.SecretKey) (tx : S.DbcTransaction) (ourName : XorName)
    (feeCiphers : ExtTreeMap XorName (FeeCiphers S.toDbcScheme)) (context : RoutingContext N)
    (wireMsg : WireMsg N.messages) (clientId : N.Participant) (clientStream : N.SendStream) :
    ((∃ result, verifyFee storeCost rewardSecretKey tx ourName feeCiphers = .ok result) ↔
      ∀ ciphers : FeeCiphers S.toDbcScheme, feeCiphers[ourName]? = some ciphers → ∀ bytes,
        S.decrypt rewardSecretKey ciphers.derivationIndex = some bytes → 32 ≤ bytes.length) ∧
    ((∃ cmd, context.forwardDataChecked wireMsg clientId clientStream = .ok cmd) ↔
      ∀ index, wireMsg.kind.queryIndex = some index → index.toNat % 256 = 255 →
        index.toNat < min N.dataCopyCount context.members.length) :=
  ⟨verifyFee_returns_iff, RoutingContext.forwardDataChecked_returns_iff⟩

def sampleShortCiphers : FeeCiphers sampleDbcs := ⟨((0 : Nat), []), ((5 : Nat), [])⟩

def sampleFarQuery : WireMsg sampleNetwork.messages :=
  WireMsg.newMsg (W := sampleWire) true [7] (.client () false (some 255)) ⟨sampleName, (1 : Nat)⟩

theorem clientMsg_panics : verifyFee (S := sampleSpends) ⟨2⟩ (5 : Nat) ([], []) (sampleNodeName [true])
        (ExtTreeMap.ofList [(sampleNodeName [true], sampleShortCiphers)]) = .error .sliceOutOfRange ∧
      sampleElder.forwardDataChecked sampleFarQuery (9 : Nat) () = .error .arithmetic := by
  constructor
  · rfl
  · have none : (sampleElder.targetDataHolders sampleName (some 255)).isEmpty = true :=
      RoutingContext.isEmpty_targetDataHolders.mpr (by decide)
    exact if_pos ⟨none, rfl⟩

/-! ## Messages that are processed directly -/

variable {S : StorageScheme} {SpentbookCmd : Type}

inductive DataCmd (S : StorageScheme) (SpentbookCmd : Type) where
  | storeChunk (chunk : Chunk S)
  | register (cmd : S.Cmd)
  | spentbook (cmd : SpentbookCmd)

/-- `ClientMsg`, as far as what is done with it differs. -/
inductive ClientMsg (S : StorageScheme) (SpentbookCmd : Type) where
  | cmd (cmd : DataCmd S SpentbookCmd)
  /-- `DataQuery::Spentbook(SpendQuery::GetFees)`. -/
  | getFees
  | query

def ClientMsg.isPayment : ClientMsg S SpentbookCmd → Bool
  | .cmd (.spentbook _) => true
  | .getFees => true
  | _ => false

/-- `MyNode::handle_data_cmd`. What is done with a spend is the parameter. -/
def handleDataCmd {MsgId ClientId : Type}
    (handleSpend : SpentbookCmd → S.DataResult (List (NodeCmd S MsgId ClientId)) × StorageState S)
    (os : Os S.Name) (context : NodeContext S) (self : StorageState S) (dataCmd : DataCmd S SpentbookCmd)
    (sectionSig : SectionSig S.toKeyScheme) (clientId : ClientId) (msgId : MsgId) :
    S.DataResult (List (NodeCmd S MsgId ClientId)) × StorageState S :=
  match dataCmd with
  | .storeChunk chunk => storeDataAndRespond os context self (.chunk chunk) sectionSig clientId msgId
  | .register cmd => storeDataAndRespond os context self (.registerWrite cmd) sectionSig clientId msgId
  | .spentbook cmd => handleSpend cmd

namespace RoutingContext

variable {N : NetworkScheme} {context : RoutingContext N} {wireMsg : WireMsg N.messages}
  {sender clientId : N.Participant} {sendStream : Option N.SendStream} {clientStream : N.SendStream}
  {auth : N.ClientAuth} {isSpend : Bool} {queryIndex : Option UInt64}

/-- Handling a message yields `Cmd::ProcessClientMsg` for some payload. -/
def Processes (context : RoutingContext N) (sender : N.Participant) (wireMsg : WireMsg N.messages)
    (sendStream : Option N.SendStream) (msg : N.ClientMsg) : Prop :=
  ∃ cmds, context.handleMsg sender wireMsg sendStream = .ok cmds ∧
    ∃ msgId auth clientId stream, .processClientMsg msgId msg auth clientId stream ∈ cmds

/-- Nodes are among the members closest to a name, of which there are as many as there are copies. -/
def AmongClosest (context : RoutingContext N) (name : XorName) (nodes : ExtTreeSet N.NodeId) : Prop :=
  ∃ closest ⊆ context.members, closest.length ≤ N.dataCopyCount ∧ (∀ node ∈ nodes, node ∈ closest) ∧
    ∀ near ∈ closest, ∀ other ∈ context.members, other ∉ closest →
      (N.cmpNames name (N.nodeName near) (N.nodeName other)).isLE = true

theorem amongClosest_targetDataHolders [LawfulEqOrd N.NodeId] (name : XorName)
    (ordered : TransCmp (N.cmpNames name)) (queryIndex : Option UInt64) :
    context.AmongClosest name (context.targetDataHolders name queryIndex) := by
  classical
  have perm := List.mergeSort_perm context.members fun lhs rhs =>
    (N.cmpNames name (N.nodeName lhs) (N.nodeName rhs)).isLE
  have : TransCmp fun one other : N.NodeId => N.cmpNames name (N.nodeName one) (N.nodeName other) :=
    { eq_swap := OrientedCmp.eq_swap, isLE_trans := TransCmp.isLE_trans }
  have sorted := Ranking.pairwise_mergeSort
    (fun one other : N.NodeId => N.cmpNames name (N.nodeName one) (N.nodeName other)) context.members
  refine ⟨_, fun node near => perm.mem_iff.mp (List.mem_of_mem_take near), List.length_take_le _ _, ?_, ?_⟩
  · intro node target
    rw [targetDataHolders, ExtTreeSet.mem_ofList, List.contains_iff_mem, List.mem_map] at target
    obtain ⟨⟨near, index⟩, listed, rfl⟩ := target
    exact List.fst_mem_of_mem_zipIdx (List.mem_filter.mp listed).1
  · intro near inside other member left
    have closer := Ranking.rel_of_take sorted inside (perm.mem_iff.mpr member) left
    exact closer

theorem handleMsg_client (client : wireMsg.kind = .client auth isSpend queryIndex) :
    context.handleMsg sender wireMsg sendStream =
      match checkForEntropy context.isElder wireMsg context.networkKnowledge with
      | .error error => .error (.entropy error)
      | .ok (some (update, kind)) => .ok [.antiEntropy wireMsg sender update kind sendStream]
      | .ok none => context.routeMsg sender wireMsg sendStream := by
  rw [handleMsg, client]
  rfl

theorem processClientMsg_mem (context : RoutingContext N) (sender : N.Participant)
    (sendStream : Option N.SendStream) (client : wireMsg.kind = .client auth isSpend queryIndex) {msg : N.ClientMsg} :
    (∃ msgId auth clientId stream, RoutedCmd.processClientMsg msgId msg auth clientId stream ∈
      context.processMsg sender wireMsg sendStream) ↔
      N.decodeClientMsg wireMsg.payload = .ok msg ∧ N.verifyClient auth wireMsg.payload = true := by
  rw [processMsg, WireMsg.intoMsg, client]
  cases decoded : N.decodeClientMsg wireMsg.payload with
  | error error => simp
  | ok found => cases verified : N.verifyClient auth wireMsg.payload <;>
      simp [NetworkScheme.verifyAuthority, verified, eq_comm]

theorem isForUs_of_outside (client : wireMsg.kind = .client auth isSpend queryIndex)
    (outside : ∀ member ∈ context.members, N.nodeAddr member ≠ N.participantAddr sender) :
    context.isForUs sender wireMsg = true ↔ wireMsg.dst.name = context.name ∨ isSpend = true := by
  have none : (context.members.any fun member => N.nodeAddr member = N.participantAddr sender) = false := by
    simpa using outside
  simp [isForUs, none, client, MsgKind.isClientSpend]

theorem routeMsg_client (client : wireMsg.kind = .client auth isSpend queryIndex) :
    context.routeMsg sender wireMsg sendStream =
      if context.isForUs sender wireMsg then .ok (context.processMsg sender wireMsg sendStream) else
        match sendStream with
        | none => .error .noClientResponseStream
        | some stream => .ok [context.forwardDataAndRespondToClient wireMsg sender stream] := by
  unfold routeMsg
  split
  · rfl
  · cases sendStream <;> simp only [client]

theorem forwardData_cases (context : RoutingContext N) (wireMsg : WireMsg N.messages)
    (clientId : N.Participant) (clientStream : N.SendStream) :
    (∃ ourPrefix expected found, context.forwardDataAndRespondToClient wireMsg clientId clientStream =
      .insufficientNodeCount ourPrefix expected found wireMsg.msgId clientStream clientId) ∨
    context.forwardDataAndRespondToClient wireMsg clientId clientStream = .sendAndForwardResponseToClient wireMsg
      (context.targetDataHolders wireMsg.dst.name wireMsg.kind.queryIndex) clientStream clientId := by
  simp only [forwardDataAndRespondToClient]
  split
  · split
    · exact .inl ⟨_, _, _, rfl⟩
    · exact .inr (by simp [*])
  · split
    · exact .inl ⟨_, _, _, rfl⟩
    · exact .inr (by simp [*])

theorem processes_iff (client : wireMsg.kind = .client auth isSpend queryIndex)
    (outside : ∀ member ∈ context.members, N.nodeAddr member ≠ N.participantAddr sender) {msg : N.ClientMsg} :
    context.Processes sender wireMsg sendStream msg ↔
      checkForEntropy context.isElder wireMsg context.networkKnowledge = .ok none ∧
      (wireMsg.dst.name = context.name ∨ isSpend = true) ∧
      N.decodeClientMsg wireMsg.payload = .ok msg ∧ N.verifyClient auth wireMsg.payload = true := by
  rw [Processes, handleMsg_client client, routeMsg_client client, ← isForUs_of_outside client outside,
    ← processClientMsg_mem context sender sendStream client]
  cases checkForEntropy context.isElder wireMsg context.networkKnowledge with
  | error error => simp
  | ok entropy =>
    cases entropy with
    | some answer => simp
    | none =>
      cases context.isForUs sender wireMsg with
      | true => simp
      | false =>
        cases sendStream with
        | none => simp
        | some stream =>
          obtain ⟨_, _, _, short⟩ | forwarded := context.forwardData_cases wireMsg sender stream
          · simp [short]
          · simp [forwarded]

theorem forwarded_of_handleMsg (client : wireMsg.kind = .client auth isSpend queryIndex)
    {cmds : List (RoutedCmd N (WireMsg N.messages))} {sent : WireMsg N.messages} {targets : ExtTreeSet N.NodeId}
    (handled : context.handleMsg sender wireMsg sendStream = .ok cmds)
    (listed : .sendAndForwardResponseToClient sent targets clientStream clientId ∈ cmds) :
    sent = wireMsg ∧ targets = context.targetDataHolders wireMsg.dst.name queryIndex := by
  have kept : ∀ stream, .sendAndForwardResponseToClient sent targets clientStream clientId =
      context.forwardDataAndRespondToClient wireMsg sender stream →
      sent = wireMsg ∧ targets = context.targetDataHolders wireMsg.dst.name queryIndex := by
    intro stream same
    obtain ⟨_, _, _, short⟩ | forwarded := context.forwardData_cases wireMsg sender stream
    · cases same.trans short
    · rw [client] at forwarded
      cases same.trans forwarded
      exact ⟨rfl, rfl⟩
  rw [handleMsg_client client, routeMsg_client client] at handled
  cases checked : checkForEntropy context.isElder wireMsg context.networkKnowledge with
  | error error => simp [checked] at handled
  | ok entropy =>
    cases entropy with
    | some answer =>
      simp only [checked, Except.ok.injEq] at handled
      simp [← handled] at listed
    | none =>
      simp only [checked] at handled
      split at handled
      · obtain rfl := Except.ok.inj handled
        rw [processMsg] at listed
        split at listed <;> simp at listed
      · cases sendStream with
        | none => cases handled
        | some stream =>
          obtain rfl := Except.ok.inj handled
          exact kept stream (List.mem_singleton.mp listed)

/-- Payloads of one zero byte ask for fees, all others store a chunk; the node `5` has the name of the data and
all others the name of the elder. -/
abbrev sampleClients : NetworkScheme :=
  { sampleNetwork with
    ClientMsg := ClientMsg sampleStorage Unit
    nodeName := fun node => if node = (5 : Nat) then sampleName else sampleElder.name
    cmpNames := XorName.cmpDistance
    decodeClientMsg := fun payload =>
      .ok (if payload = [0] then .getFees else .cmd (.storeChunk (.new [7]))) }

def sampleFlagged (payload : List UInt8) : WireMsg sampleClients.messages :=
  WireMsg.newMsg (W := sampleWire) true payload (.client () true none) ⟨sampleName, (1 : Nat)⟩

def sampleFarElder : RoutingContext sampleClients where
  name := sampleElder.name
  isElder := true
  networkKnowledge := sampleElder.networkKnowledge
  members := [(5 : Nat), (6 : Nat)]

theorem sampleFarElder_outside : ∀ member ∈ sampleFarElder.members,
    sampleClients.nodeAddr member ≠ sampleClients.participantAddr (9 : Nat) := by
  decide

end RoutingContext

end SafeNetwork
