import SafeNetwork.Library.Runs
import SafeNetwork.Node.StoreData

/-!
# Replication of data

A node that may miss data sends the addresses of what it has, `SendAnyMissingRelevantData`. The
receiver of that message answers with a batch of what else it holds for the node, and the node stores
the batch and asks again, until the answer is empty. The functions are those of
`node/messaging/update_section.rs`, `node/flow_ctrl/mod.rs` and `node/messaging/data.rs`; the exchange
puts them together for two nodes with one view of the section, where nothing else is written.
-/

namespace SafeNetwork

open Std Crdt FileSystem

variable {S : StorageScheme}

def maxReplicationBatchSize : Nat := 25

structure DataHolders where
  /-- The names of `NetworkKnowledge::members`. -/
  members : List XorName
  /-- `XorName::cmp_distance` — compares the distances of two names to the first one. -/
  cmpDistance : XorName → XorName → XorName → Ordering
  dataCopyCount : Nat

namespace DataHolders

variable (self : DataHolders)

def holderList (name : XorName) : List XorName :=
  (self.members.mergeSort fun lhs rhs => (self.cmpDistance name lhs rhs).isLE).take
    self.dataCopyCount

def isHolder (node : XorName) (data : DataAddress) : Bool :=
  (self.holderList data.name).contains node

/-- `MyNode::get_missing_data_for_node` — the addresses of the batch for the sender, if there are
any. `dataIHave` are the addresses of our own data after the shuffle. -/
def getMissingDataForNode (sender : XorName) (dataSenderHas dataIHave : List DataAddress) :
    Option (List DataAddress) :=
  if dataIHave.isEmpty then none
  else
    let missing := dataIHave.filter fun data =>
      !dataSenderHas.contains data && self.isHolder sender data
    let dataForSender := missing.take maxReplicationBatchSize
    if dataForSender.isEmpty then none else some dataForSender

end DataHolders

/-- `FlowCtrl::send_out_data_for_replication` — the batch for some addresses. What cannot be read is
left out, and the batch is sent even when it is empty. -/
def sendOutDataForReplication (os : Os S.Name) (fs : Fs S.Name) (dataAddresses : List DataAddress) :
    List (ReplicatedData S) :=
  dataAddresses.filterMap fun address => (DataStorage.getFromLocalStore os fs address).toOption

inductive ReplicationCmd (S : StorageScheme) where
  | setJoinsAllowed (allowed : Bool)
  /-- `MyNode::send_to_elders` with an event of the node. -/
  | sendToElders (event : CouldNotStoreData S)
  /-- `NodeDataCmd::SendAnyMissingRelevantData` to the sender of the batch. -/
  | sendAnyMissingRelevantData (dataIHave : List DataAddress)

structure BatchState (S : StorageScheme) where
  storage : StorageState S
  cmds : List (ReplicationCmd S)
  isFull : Bool
  newStorageLevelPassed : Bool

/-- The loop body of `replicate_data_batch`. -/
def replicateItem (os : Os S.Name) (context : NodeContext S) (sectionSig : SectionSig S.toKeyScheme)
    (before : BatchState S) (data : ReplicatedData S) : BatchState S :=
  match DataStorage.store os before.storage data context.sectionPk context.keypair sectionSig with
  | (.ok .noChange, storage) => { before with storage := storage }
  | (.ok (.updated _), storage) =>
    if !before.newStorageLevelPassed && !context.joinsAllowed then
      { before with storage := storage, newStorageLevelPassed := true,
                    cmds := before.cmds ++ [.setJoinsAllowed true] }
    else { before with storage := storage }
  | (.error .notEnoughSpace, storage) =>
    let event := ⟨S.keypairPublicKey context.keypair, data.address, true⟩
    { before with storage := storage, isFull := true, cmds := before.cmds ++ [.sendToElders event] }
  | (.error _, storage) => { before with storage := storage }

/-- The loop of `replicate_data_batch`. -/
def replicateItems (os : Os S.Name) (context : NodeContext S)
    (sectionSig : SectionSig S.toKeyScheme) (self : StorageState S)
    (dataBatch : List (ReplicatedData S)) : BatchState S :=
  dataBatch.foldl (replicateItem os context sectionSig) ⟨self, [], false, false⟩

/-- `MyNode::replicate_data_batch` — the commands to issue and the storage afterwards. As long as the
batch is not empty and there is space, we ask again with what we have then, listed by `relisting`. -/
def replicateDataBatch (os relisting : Os S.Name) (context : NodeContext S)
    (sectionSig : SectionSig S.toKeyScheme) (self : StorageState S)
    (dataBatch : List (ReplicatedData S)) : List (ReplicationCmd S) × StorageState S :=
  let after := replicateItems os context sectionSig self dataBatch
  if !after.isFull && !dataBatch.isEmpty then
    let dataIHave := DataStorage.dataAddrs relisting after.storage.fs
    (after.cmds ++ [.sendAnyMissingRelevantData dataIHave], after.storage)
  else (after.cmds, after.storage)

def ReplicationCmd.request? : ReplicationCmd S → Option (List DataAddress)
  | .sendAnyMissingRelevantData dataIHave => some dataIHave
  | _ => none

def ReplicationCmd.reportsFull : ReplicationCmd S → Bool
  | .sendToElders event => event.full
  | _ => false

/-! ## The exchange -/

/-- Two nodes between which data is replicated: the holder, which answers, and the receiver. -/
structure Replication (S : StorageScheme) where
  holders : DataHolders
  receiver : XorName
  context : NodeContext S
  sectionSig : SectionSig S.toKeyScheme
  disk : Fs S.Name

/-- What the operating systems and the random numbers do in one round. Any call may fail. -/
structure Round (S : StorageScheme) where
  listing : Os S.Name
  shuffle : List DataAddress → List DataAddress
  shuffle_perm : ∀ addresses, (shuffle addresses).Perm addresses
  reading : Os S.Name
  storing : Os S.Name
  relisting : Os S.Name

structure Exchange (S : StorageScheme) where
  storage : StorageState S
  /-- The request that the holder has to answer; when there is none, the exchange has ended. -/
  pending : Option (List DataAddress)
  full : Bool
  /-- Every `SendAnyMissingRelevantData` so far. -/
  requests : List (List DataAddress)
  /-- Every `ReplicateDataBatch` so far. -/
  batches : List (List (ReplicatedData S))

namespace Exchange

def sent (self : Exchange S) : List DataAddress := self.batches.flatten.map (·.address)

@[simp] theorem sent_append {before : Exchange S} {storage : StorageState S} {full : Bool}
    {request : Option (List DataAddress)} {requests : List (List DataAddress)} {dataBatch : List (ReplicatedData S)} :
    sent ⟨storage, request, full, requests, before.batches ++ [dataBatch]⟩ =
      before.sent ++ dataBatch.map (·.address) := by
  simp [sent]

def start (os : Os S.Name) (storage : StorageState S) : Exchange S :=
  let dataIHave := DataStorage.dataAddrs os storage.fs
  ⟨storage, some dataIHave, false, [dataIHave], []⟩

end Exchange

namespace Replication

variable (self : Replication S)

def answer (round : Round S) (dataSenderHas : List DataAddress) : Option (List DataAddress) :=
  self.holders.getMissingDataForNode self.receiver dataSenderHas
    (round.shuffle (DataStorage.dataAddrs round.listing self.disk))

def batch (round : Round S) (dataSenderHas : List DataAddress) : Option (List (ReplicatedData S)) :=
  (self.answer round dataSenderHas).map (sendOutDataForReplication round.reading self.disk)

/-- One round: the holder answers the request, and the receiver stores the batch. -/
def step (before : Exchange S) (round : Round S) : Exchange S :=
  match before.pending with
  | none => before
  | some dataSenderHas =>
    match self.batch round dataSenderHas with
    | none => { before with pending := none }
    | some dataBatch =>
      let (cmds, storage) := replicateDataBatch round.storing round.relisting self.context
        self.sectionSig before.storage dataBatch
      let request := cmds.findSome? ReplicationCmd.request?
      ⟨storage, request, before.full || cmds.any ReplicationCmd.reportsFull,
        before.requests ++ request.toList, before.batches ++ [dataBatch]⟩

abbrev exchange (os : Os S.Name) (storage : StorageState S) (rounds : List (Round S)) : Exchange S :=
  Runs.run self.step (.start os storage) rounds

end Replication

/-! ## What a round does -/

section Batch

variable {os relisting : Os S.Name} {context : NodeContext S}
  {sectionSig : SectionSig S.toKeyScheme} {before : BatchState S} {data : ReplicatedData S}
  {self : StorageState S} {dataBatch : List (ReplicatedData S)} {motive : List (ReplicatedData S) → StorageState S → Prop}

/-- The commands of the loop do not ask again, and they report a lack of space that was met. -/
structure BatchState.Reports (after : BatchState S) : Prop where
  silent : after.cmds.findSome? ReplicationCmd.request? = none
  full : after.cmds.any ReplicationCmd.reportsFull = after.isFull

theorem replicateItem_storage : (replicateItem os context sectionSig before data).storage =
    (DataStorage.store os before.storage data context.sectionPk context.keypair sectionSig).2 := by
  unfold replicateItem
  split
  · rename_i same
    rw [same]
  · rename_i same
    rw [same]
    split
    · rfl
    · rfl
  · rename_i same
    rw [same]
  · rename_i same
    rw [same]

theorem replicateItem_isFull : (replicateItem os context sectionSig before data).isFull = true ↔
    before.isFull = true ∨ (DataStorage.store os before.storage data context.sectionPk
      context.keypair sectionSig).1 = .error .notEnoughSpace := by
  unfold replicateItem
  split
  · rename_i same
    simp [same]
  · rename_i same
    rw [same]
    split
    · simp
    · simp
  · rename_i same
    simp [same]
  · rename_i other same
    rw [same]
    simpa using fun isFull => absurd isFull other

theorem BatchState.Reports.replicateItem (reports : before.Reports) :
    (replicateItem os context sectionSig before data).Reports := by
  obtain ⟨silent, full⟩ := reports
  unfold SafeNetwork.replicateItem
  split
  · exact ⟨silent, full⟩
  · split
    · constructor
      · simpa [List.findSome?_append, ReplicationCmd.request?] using silent
      · simpa [ReplicationCmd.reportsFull] using full
    · exact ⟨silent, full⟩
  · constructor
    · simpa [List.findSome?_append, ReplicationCmd.request?] using silent
    · simp [ReplicationCmd.reportsFull]
  · exact ⟨silent, full⟩

theorem replicateItems_reports : (replicateItems os context sectionSig self dataBatch).Reports := by
  unfold replicateItems
  apply List.foldlRecOn (motive := BatchState.Reports)
  · exact ⟨rfl, rfl⟩
  · exact fun _ reports _ _ => reports.replicateItem

theorem foldl_isFull (isFull : before.isFull = true) :
    (dataBatch.foldl (replicateItem os context sectionSig) before).isFull = true := by
  apply List.foldlRecOn (motive := fun after : BatchState S => after.isFull = true) _ _ isFull
  intro after full data _
  exact replicateItem_isFull.mpr (Or.inl full)

/-- What holds of the stored items and the storage after each of them holds of the whole batch, if
there was space for it. -/
theorem foldl_induction {done : List (ReplicatedData S)} (start : motive done before.storage)
    (keeps : ∀ done self, ∀ data ∈ dataBatch, motive done self →
      (DataStorage.store os self data context.sectionPk context.keypair sectionSig).1 ≠ .error .notEnoughSpace →
      motive (done ++ [data]) (DataStorage.store os self data context.sectionPk context.keypair sectionSig).2)
    (space : (dataBatch.foldl (replicateItem os context sectionSig) before).isFull = false) :
    motive (done ++ dataBatch) (dataBatch.foldl (replicateItem os context sectionSig) before).storage := by
  induction dataBatch generalizing before done with
  | nil => simpa using start
  | cons data rest ih =>
    rw [List.foldl_cons] at space ⊢
    have stored : (DataStorage.store os before.storage data context.sectionPk context.keypair
        sectionSig).1 ≠ .error .notEnoughSpace := by
      intro refused
      rw [foldl_isFull (replicateItem_isFull.mpr (Or.inr refused))] at space
      cases space
    have next := keeps done before.storage data (List.mem_cons_self ..) start stored
    rw [← replicateItem_storage] at next
    have later := ih next (fun done self other mem => keeps done self other
      (List.mem_cons_of_mem _ mem)) space
    rwa [List.append_assoc, List.singleton_append] at later

theorem replicateItems_induction (start : motive [] self) (keeps : ∀ done self, ∀ data ∈ dataBatch, motive done self →
      (DataStorage.store os self data context.sectionPk context.keypair sectionSig).1 ≠ .error .notEnoughSpace →
      motive (done ++ [data]) (DataStorage.store os self data context.sectionPk context.keypair sectionSig).2)
    (space : (replicateItems os context sectionSig self dataBatch).isFull = false) :
    motive dataBatch (replicateItems os context sectionSig self dataBatch).storage := by
  have whole := foldl_induction start keeps space
  rwa [List.nil_append] at whole

end Batch

namespace Replication

variable {self : Replication S} {before : Exchange S} {round : Round S}

/-- What a round does: nothing once the exchange has ended; it ends when nothing is missing, and
otherwise a batch is stored. -/
inductive Turn (self : Replication S) (before : Exchange S) (round : Round S) : Exchange S → Prop
  | ended : before.pending = none → Turn self before round before
  | complete {dataSenderHas : List DataAddress} : before.pending = some dataSenderHas →
      self.answer round dataSenderHas = none → Turn self before round { before with pending := none }
  /-- The receiver stores a batch, and asks again unless it is full or the batch is empty. -/
  | stored {dataSenderHas addresses : List DataAddress} {dataBatch : List (ReplicatedData S)}
      {after : BatchState S} {request : Option (List DataAddress)} :
      before.pending = some dataSenderHas → self.answer round dataSenderHas = some addresses →
      dataBatch = sendOutDataForReplication round.reading self.disk addresses →
      after = replicateItems round.storing self.context self.sectionSig before.storage dataBatch →
      request = (if after.isFull || dataBatch.isEmpty then none
        else some (DataStorage.dataAddrs round.relisting after.storage.fs)) →
      Turn self before round ⟨after.storage, request, before.full || after.isFull,
        before.requests ++ request.toList, before.batches ++ [dataBatch]⟩

theorem step_turn (self : Replication S) (before : Exchange S) (round : Round S) :
    Turn self before round (self.step before round) := by
  unfold step
  split
  · rename_i ended
    exact .ended ended
  · rename_i dataSenderHas pending
    cases answered : self.answer round dataSenderHas with
    | none =>
      rw [batch, answered]
      exact .complete pending answered
    | some addresses =>
      rw [batch, answered]
      have reports : (replicateItems round.storing self.context self.sectionSig before.storage
        (sendOutDataForReplication round.reading self.disk addresses)).Reports := replicateItems_reports
      have turn := Turn.stored pending answered rfl rfl rfl
      simp only [Option.map_some, replicateDataBatch]
      cases full : (replicateItems round.storing self.context self.sectionSig before.storage
          (sendOutDataForReplication round.reading self.disk addresses)).isFull with
      | true =>
        simpa [full, reports.silent, reports.full] using turn
      | false =>
        cases empty : (sendOutDataForReplication round.reading self.disk addresses).isEmpty with
        | true => simpa [full, empty, reports.silent, reports.full] using turn
        | false =>
          simpa [full, empty, reports.silent, reports.full, List.findSome?_append,
            ReplicationCmd.request?, ReplicationCmd.reportsFull] using turn

end Replication

end SafeNetwork
