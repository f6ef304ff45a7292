import SafeNetwork.Storage.ReadBack

/-!
# Storing data and responding

`MyNode::store_data_and_respond` of `sn_node/src/node/messaging/node_msgs.rs`: a node stores the data
of a command and answers the client. Only a lack of space is answered with an error. Every other
error of the storage is taken for one of data that is already there, though the storage has no such
error, and is answered like a success.
-/

namespace SafeNetwork

open Std Crdt FileSystem

variable {S : StorageScheme}

inductive CmdResponse (S : StorageScheme) where
  /-- Response to `DataCmd::StoreChunk`. -/
  | storeChunk (result : S.DataResult Unit)
  /-- Response to `RegisterCmd::Create`. -/
  | createRegister (result : S.DataResult Unit)
  /-- Response to `RegisterCmd::Edit`. -/
  | editRegister (result : S.DataResult Unit)
  /-- Response to `SpentbookCmd::Spend`. -/
  | spendKey (result : S.DataResult Unit)

namespace CmdResponse

/-- The response to the command that some data comes from. A log does not come from a command. -/
def respond (data : ReplicatedData S) (result : S.DataResult Unit) : S.DataResult (CmdResponse S) :=
  match data with
  | .chunk _ => .ok (.storeChunk result)
  | .registerWrite (.create _ _) => .ok (.createRegister result)
  | .registerWrite (.edit _) => .ok (.editRegister result)
  | .spentbookWrite _ => .ok (.spendKey result)
  | .registerLog _ => .error .noCorrespondingCmdError
  | .spentbookLog _ => .error .noCorrespondingCmdError

def ok (data : ReplicatedData S) : S.DataResult (CmdResponse S) := respond data (.ok ())

def err (data : ReplicatedData S) (error : DataError S.UserKey S.Hash) :
    S.DataResult (CmdResponse S) :=
  respond data (.error error)

def result : CmdResponse S → S.DataResult Unit
  | .storeChunk result => result
  | .createRegister result => result
  | .editRegister result => result
  | .spendKey result => result

end CmdResponse

/-- `NodeContext` — what storing data uses of it. -/
structure NodeContext (S : StorageScheme) where
  /-- `PublicKey::Bls` of the section key. -/
  sectionPk : S.UserKey
  keypair : S.Keypair
  isElder : Bool
  joinsAllowed : Bool
  joinsAllowedUntilSplit : Bool

structure CouldNotStoreData (S : StorageScheme) where
  nodeId : S.UserKey
  dataAddress : DataAddress
  full : Bool

inductive NodeCmd (S : StorageScheme) (MsgId ClientId : Type) where
  | setJoinsAllowed (allowed : Bool)
  | setJoinsAllowedUntilSplit (allowed : Bool)
  /-- `MyNode::send_to_elders` with an event of the node. -/
  | sendToElders (event : CouldNotStoreData S)
  /-- `Cmd::send_data_response` with a response to a command. -/
  | sendDataResponse (response : CmdResponse S) (correlationId : MsgId) (clientId : ClientId)

section Respond

variable {MsgId ClientId : Type}

/-- The commands and the response for a result of storing data; `self` is the storage afterwards. -/
def replyTo (context : NodeContext S) (self : StorageState S) (data : ReplicatedData S) :
    S.Result StorageLevel → List (NodeCmd S MsgId ClientId) × S.DataResult (CmdResponse S)
  | .ok (.updated _) => ([.setJoinsAllowed true], CmdResponse.ok data)
  | .ok .noChange =>
    if self.usedSpace.hasReachedMinCapacity && !context.joinsAllowedUntilSplit then
      ([.setJoinsAllowedUntilSplit true], CmdResponse.ok data)
    else ([], CmdResponse.ok data)
  | .error .notEnoughSpace =>
    let event := ⟨S.keypairPublicKey context.keypair, data.address, true⟩
    let joins := if context.isElder && !context.joinsAllowed then
        [.setJoinsAllowedUntilSplit true]
      else []
    (joins ++ [.sendToElders event],
      CmdResponse.err data (StorageError.notEnoughSpace : S.Error).toDataError)
  | .error _ => ([], CmdResponse.ok data)

/-- `MyNode::store_data_and_respond` — the commands to issue and the storage afterwards. -/
def storeDataAndRespond (os : Os S.Name) (context : NodeContext S) (self : StorageState S)
    (data : ReplicatedData S) (sectionSig : SectionSig S.toKeyScheme) (clientId : ClientId)
    (correlationId : MsgId) : S.DataResult (List (NodeCmd S MsgId ClientId)) × StorageState S :=
  let (stored, self) := DataStorage.store os self data context.sectionPk context.keypair sectionSig
  let (cmds, response) := replyTo context self data stored
  (response.map fun response => cmds ++ [.sendDataResponse response correlationId clientId], self)

/-! ## Honest acknowledgements -/

def NodeCmd.acknowledges : NodeCmd S MsgId ClientId → Bool
  | .sendDataResponse response _ _ => response.result.toOption.isSome
  | _ => false

def acknowledged (answer : S.DataResult (List (NodeCmd S MsgId ClientId))) : Bool :=
  match answer with
  | .ok cmds => cmds.any NodeCmd.acknowledges
  | .error _ => false

/-- Data is in the store: a chunk can be read under its address, a command is among those of its
register. -/
def InStore (fs : Fs S.Name) : ReplicatedData S → Prop
  | .chunk chunk => ∀ os : Os S.Name, os.Reliable →
    ChunkStorage.getChunk os fs chunk.address = .ok chunk
  | .registerWrite cmd => Has fs (.cmd cmd.dstAddress cmd)
  | .registerLog log => ∀ cmd ∈ log.opLog, Has fs (.cmd log.address cmd)
  | .spentbookWrite cmd => Has fs (.cmd cmd.dstAddress cmd)
  | .spentbookLog log => ∀ cmd ∈ log.opLog, Has fs (.cmd log.address cmd)

variable {os : Os S.Name} {context : NodeContext S} {self : StorageState S} {data : ReplicatedData S}
  {item : Item S} {sectionSig : SectionSig S.toKeyScheme} {clientId : ClientId} {correlationId : MsgId}

section

variable (isItem : DataStorage.itemOf data = some item)
include isItem

theorem inStore_iff {fs : Fs S.Name} :
    InStore fs data ↔ Has fs item := by
  cases data with
  | chunk chunk =>
    cases isItem
    constructor
    · intro readable
      have reliable : (Os.inOrder : Os S.Name).Reliable := Os.inOrder_reliable
      exact (ChunkStorage.getChunk_eq_ok (reliable _)).mp (readable _ reliable)
    · exact fun has os reliable => (ChunkStorage.getChunk_eq_ok (reliable _)).mpr has
  | registerWrite cmd => cases isItem; exact Iff.rfl
  | registerLog log => cases isItem
  | spentbookWrite cmd => cases isItem; exact Iff.rfl
  | spentbookLog log => cases isItem

theorem exists_respond (result : S.DataResult Unit) :
    ∃ response : CmdResponse S, CmdResponse.respond data result = .ok response ∧
      response.result = result := by
  cases data with
  | chunk chunk => exact ⟨_, rfl, rfl⟩
  | registerWrite cmd => cases cmd <;> exact ⟨_, rfl, rfl⟩
  | registerLog log => cases isItem
  | spentbookWrite cmd => exact ⟨_, rfl, rfl⟩
  | spentbookLog log => cases isItem

theorem acknowledged_ok
    (cmds : List (NodeCmd S MsgId ClientId)) (clientId : ClientId) (correlationId : MsgId) :
    acknowledged ((CmdResponse.ok data).map fun response =>
      cmds ++ [.sendDataResponse response correlationId clientId]) = true := by
  obtain ⟨response, responds, result⟩ := exists_respond isItem (.ok ())
  simp [CmdResponse.ok, responds, Except.map, acknowledged, NodeCmd.acknowledges, result,
    Except.toOption]

theorem acknowledged_err
    {cmds : List (NodeCmd S MsgId ClientId)} (silent : ∀ cmd ∈ cmds, cmd.acknowledges = false)
    (error : DataError S.UserKey S.Hash) (clientId : ClientId) (correlationId : MsgId) :
    acknowledged ((CmdResponse.err data error).map fun response =>
      cmds ++ [.sendDataResponse response correlationId clientId]) = false := by
  obtain ⟨response, responds, result⟩ := exists_respond isItem (.error error)
  have quiet : cmds.any NodeCmd.acknowledges = false := by simpa using silent
  simp [CmdResponse.err, responds, Except.map, acknowledged, NodeCmd.acknowledges, result,
    Except.toOption, quiet]

theorem acknowledged_iff :
    acknowledged (storeDataAndRespond os context self data sectionSig clientId correlationId).1 = true ↔
      (DataStorage.store os self data context.sectionPk context.keypair sectionSig).1 ≠ .error .notEnoughSpace := by
  unfold storeDataAndRespond
  cases DataStorage.store os self data context.sectionPk context.keypair sectionSig with
  | mk stored after =>
    simp only [replyTo]
    split
    · exact iff_of_true (acknowledged_ok isItem ..) nofun
    · split
      · exact iff_of_true (acknowledged_ok isItem ..) nofun
      · exact iff_of_true (acknowledged_ok isItem ..) nofun
    · refine iff_of_false ?_ (fun other => other rfl)
      rw [acknowledged_err isItem]
      · exact Bool.false_ne_true
      · split <;> simp [NodeCmd.acknowledges]
    · rename_i other
      exact iff_of_true (acknowledged_ok isItem ..) fun same => other (Except.error.inj same)

end

theorem storeDataAndRespond_storage : (storeDataAndRespond os context self data sectionSig clientId correlationId).2 =
      (DataStorage.store os self data context.sectionPk context.keypair sectionSig).2 := rfl

/-- For every storage, every behaviour of the file system and all data of a command: data that is
acknowledged is in the store if and only if it is refused for lack of space, or accepted and its file
is whole after the attempt to write it, or not accepted but was there. -/
theorem acknowledgement_honest_iff (os : Os S.Name) (context : NodeContext S) (self : StorageState S)
    (data : ReplicatedData S) (item : Item S) (isItem : DataStorage.itemOf data = some item)
    (sectionSig : SectionSig S.toKeyScheme) (clientId : ClientId) (correlationId : MsgId) :
    (acknowledged (storeDataAndRespond os context self data sectionSig clientId correlationId).1 = true →
      InStore (storeDataAndRespond os context self data sectionSig clientId correlationId).2.fs data) ↔
    DataStorage.Refused os self context.sectionPk context.keypair sectionSig data ∨
      DataStorage.Kept os self context.sectionPk context.keypair sectionSig data item := by
  rw [acknowledged_iff isItem, inStore_iff isItem, storeDataAndRespond_storage]
  exact (DataStorage.store_outcome isItem).kept_iff

end Respond

/-! ## Samples -/

def sampleContext : NodeContext sampleStorage := ⟨1, 1, false, true, false⟩

def sampleEmpty : StorageState sampleStorage := DataStorage.new .empty (.new 1000 1000)

def sampleCreated : StorageState sampleStorage :=
  (DataStorage.store sampleOs sampleEmpty (.registerWrite (sampleCreate sampleAddress 1 1)) 1 1
    ⟨0, 0, 0⟩).2

theorem perm_sampleOrder (paths : List (List sampleStorage.Name)) : (id paths).Perm paths := List.Perm.refl _

def sampleFailingOs : Os sampleStorage.Name where
  fault call :=
    match call with
    | .write _ => some (.other 28)
    | _ => none
  written _ _ := []
  directoryLen _ := 0
  order := id
  written_isPrefix _ _ := List.nil_prefix
  order_perm := perm_sampleOrder

theorem acknowledgement_honest_iff_chunk :
    acknowledged (storeDataAndRespond sampleOs sampleContext sampleEmpty (.chunk (.new [7]))
      ⟨0, 0, 0⟩ () ()).1 = true ∧
    InStore (storeDataAndRespond sampleOs sampleContext sampleEmpty (.chunk (.new [7])) ⟨0, 0, 0⟩
      () ()).2.fs (.chunk (.new [7])) := by
  have answered : acknowledged (storeDataAndRespond sampleOs sampleContext sampleEmpty
      (.chunk (.new [7])) ⟨0, 0, 0⟩ () ()).1 = true := by
    decide +kernel
  have unseen : sampleEmpty.fs.pathExists sampleOs
      (Item.chunk (.new [7] : Chunk sampleStorage)).path = false := rfl
  have writable : Writable sampleOs sampleEmpty.fs (.chunk (.new [7])) := by
    refine ⟨Fs.createDirAll_ok sampleOs_reliable fun _ _ _ _ => nofun, rfl, nofun⟩
  exact ⟨answered, (acknowledgement_honest_iff sampleOs sampleContext sampleEmpty (.chunk (.new [7]))
    (.chunk (.new [7])) rfl ⟨0, 0, 0⟩ () ()).mpr
    (Or.inr (Or.inl ⟨trivial, Or.inr ⟨unseen, writable, Or.inl ⟨rfl, rfl⟩⟩⟩)) answered⟩

/-- An edit with a bad signature is acknowledged and not stored, and so is a chunk that cannot be
written. -/
theorem acknowledgement_dishonest : (acknowledged (storeDataAndRespond sampleOs sampleContext sampleCreated
        (.registerWrite (.edit (sampleEdit sampleAddress [] [7] 2 3))) ⟨0, 0, 0⟩ () ()).1 = true ∧
      ¬ InStore (storeDataAndRespond sampleOs sampleContext sampleCreated
        (.registerWrite (.edit (sampleEdit sampleAddress [] [7] 2 3))) ⟨0, 0, 0⟩ () ()).2.fs
          (.registerWrite (.edit (sampleEdit sampleAddress [] [7] 2 3)))) ∧
    acknowledged (storeDataAndRespond sampleFailingOs sampleContext sampleEmpty
        (.chunk (.new [7])) ⟨0, 0, 0⟩ () ()).1 = true ∧
      ¬ InStore (storeDataAndRespond sampleFailingOs sampleContext sampleEmpty
        (.chunk (.new [7])) ⟨0, 0, 0⟩ () ()).2.fs (.chunk (.new [7])) := by
  have refused : (storeDataAndRespond sampleOs sampleContext sampleCreated
      (.registerWrite (.edit (sampleEdit sampleAddress [] [7] 2 3))) ⟨0, 0, 0⟩ () ()).2.fs.get
        (Item.cmd sampleAddress (.edit (sampleEdit sampleAddress [] [7] 2 3))).path = none := by
    decide +kernel
  have torn : (storeDataAndRespond sampleFailingOs sampleContext sampleEmpty
      (.chunk (.new [7])) ⟨0, 0, 0⟩ () ()).2.fs.get
        (Item.chunk (.new [7] : Chunk sampleStorage)).path = some (.file []) := by
    decide +kernel
  refine ⟨⟨by decide +kernel, fun stored => ?_⟩, by decide +kernel, fun stored => ?_⟩
  · have has : Has _ (Item.cmd sampleAddress (.edit (sampleEdit sampleAddress [] [7] 2 3))) := stored
    rw [Has, refused] at has
    cases has
  · have has := (inStore_iff rfl).mp stored
    rw [Has, torn] at has
    cases has

end SafeNetwork
