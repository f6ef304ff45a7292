import SafeNetwork.Node.Replication
import SafeNetwork.Storage.Holding

/-!
# Paging ends

A receiver asks again after every batch that is not empty, whatever happened to its items. So the
exchange goes on for ever with an item that the receiver never stores. While the receiver's disk does
not fail, every item of a batch is listed afterwards, or the receiver is full: no address is sent
twice, and the number of messages is bounded by what was missing at the start.
-/

namespace SafeNetwork

open Std Crdt FileSystem

variable {S : StorageScheme} {os : Os S.Name} {disk start : Fs S.Name} {data : ReplicatedData S}

/-! ## The items of a batch -/

inductive Copy (disk : Fs S.Name) : ReplicatedData S → Prop
  | chunk {chunk : Chunk S} : Has disk (.chunk chunk) → Copy disk (.chunk chunk)
  | registerLog {log : ReplicatedRegisterLog S} :
      (∀ cmd ∈ log.opLog, Has disk (.cmd log.address cmd)) → Copy disk (.registerLog log)

section Reading

variable {os : Os S.Name} {disk : Fs S.Name} {address : DataAddress} {data : ReplicatedData S}

theorem has_of_mem_storedLog (layout : Layout disk) {addr : RegisterAddress} {cmd : S.Cmd}
    (mem : cmd ∈ RegisterStorage.storedLog os disk addr) : Has disk (.cmd addr cmd) := by
  obtain ⟨path, listed, read⟩ := List.mem_filterMap.mp mem
  obtain ⟨-, inside, -⟩ := DataStorage.mem_listFilesIn.mp listed
  obtain ⟨other, has, rfl⟩ := (RegisterStorage.mem_files_addressToFilepath layout).mp inside
  unfold RegisterStore.readCmd at read
  split at read
  · cases read
  · rename_i serializedData opened
    have stands := Fs.get_of_read opened
    rw [show disk.get (Item.cmd addr other).path = some (.file (S.serialise other)) from has] at stands
    obtain rfl : S.serialise other = serializedData := by simpa using stands
    rw [S.deserialise_serialise] at read
    exact Option.some.inj read ▸ has

theorem getFromLocalStore_register {addr : RegisterAddress}
    (got : DataStorage.getFromLocalStore os disk (.register addr) = .ok data) :
    data = .registerLog ⟨addr, RegisterStorage.storedLog os disk addr⟩ := by
  simp only [DataStorage.getFromLocalStore, RegisterStorage.getRegisterReplica,
    RegisterStorage.tryLoadStoredRegister_eq] at got
  cases loaded : RegisterStorage.loadLog (RegisterStore.addressToFilepath S addr)
      (RegisterStorage.storedLog os disk addr) with
  | error error =>
    rw [loaded] at got
    cases got
  | ok stored =>
    rw [loaded] at got
    cases got
    obtain ⟨-, rfl⟩ | ⟨_, -, -, -, rfl⟩ := RegisterStorage.loadLog_eq_ok.mp loaded
    · rfl
    · rfl

theorem getFromLocalStore_copy (layout : Layout disk) (held : Held disk address)
    (got : DataStorage.getFromLocalStore os disk address = .ok data) : Copy disk data ∧ data.address = address := by
  cases address with
  | safeKey name => exact absurd held id
  | spentbook addr => exact absurd held id
  | bytes addr =>
    simp only [DataStorage.getFromLocalStore, ChunkStorage.getChunk] at got
    split at got
    · rename_i bytes read
      split at got
      · cases got
      · rename_i matching
        obtain rfl : (Chunk.new bytes : Chunk S).address = addr := not_not.mp matching
        cases got
        exact ⟨.chunk (Fs.get_of_read read), rfl⟩
    · cases got
    · cases got
  | register addr =>
    obtain rfl := getFromLocalStore_register got
    exact ⟨.registerLog fun cmd mem => has_of_mem_storedLog layout mem, rfl⟩

variable {addresses : List DataAddress}

theorem exists_read_of_mem_sendOut (mem : data ∈ sendOutDataForReplication os disk addresses) :
    ∃ address ∈ addresses, DataStorage.getFromLocalStore os disk address = .ok data := by
  obtain ⟨address, inside, got⟩ := List.mem_filterMap.mp mem
  cases read : DataStorage.getFromLocalStore os disk address with
  | error error =>
    rw [read] at got
    cases got
  | ok found =>
    rw [read] at got
    cases got
    exact ⟨address, inside, read⟩

variable (layout : Layout disk) (held : ∀ address ∈ addresses, Held disk address)
include layout held

theorem copy_of_mem_sendOut
    (mem : data ∈ sendOutDataForReplication os disk addresses) : Copy disk data := by
  obtain ⟨address, inside, read⟩ := exists_read_of_mem_sendOut mem
  exact (getFromLocalStore_copy layout (held address inside) read).1

theorem sendOut_sublist :
    ((sendOutDataForReplication os disk addresses).map (·.address)).Sublist addresses := by
  induction addresses with
  | nil => exact List.Sublist.refl _
  | cons address rest ih =>
    rw [List.forall_mem_cons] at held
    have later := ih held.2
    unfold sendOutDataForReplication at later ⊢
    cases read : DataStorage.getFromLocalStore os disk address with
    | error error =>
      rw [List.filterMap_cons, read]
      exact later.cons _
    | ok data =>
      rw [List.filterMap_cons, read]
      simp only [Except.toOption, List.map_cons, (getFromLocalStore_copy layout held.1 read).2]
      exact later.cons_cons _

end Reading

/-! ## Storing the items -/

/-- A command that is accepted where there is nothing: an edit or a properly signed creation. -/
def StandsAlone : S.Cmd → Prop
  | .edit _ => True
  | .create signed _ => signed.auth.verifyAuthority (S.serializeCreate signed.op) = true

def Usable : ReplicatedData S → Prop
  | .registerLog log => ∃ cmd ∈ log.opLog, StandsAlone cmd
  | _ => True

theorem usable_of_mem_sendOut {addresses : List DataAddress} (layout : Layout disk) (reliable : os.Reliable)
    (alone : ∀ addr cmd, Has disk (.cmd addr cmd) → StandsAlone cmd) (held : ∀ address ∈ addresses, Held disk address)
    (mem : data ∈ sendOutDataForReplication os disk addresses) : Usable data := by
  obtain ⟨address, inside, read⟩ := exists_read_of_mem_sendOut mem
  obtain ⟨copy, rfl⟩ := getFromLocalStore_copy layout (held address inside) read
  cases copy with
  | chunk => trivial
  | @registerLog log onDisk =>
    obtain ⟨cmd, has⟩ := held _ inside
    have isLog := RegisterStorage.storedLog_isLog layout reliable log.address
    rw [getFromLocalStore_register read]
    exact ⟨cmd, (isLog.mem_iff cmd).mpr has, alone _ _ has⟩

theorem acceptCmds_ne_nil {log : ReplicatedRegisterLog S} {path : S.Path} (usable : Usable (.registerLog log)) :
    RegisterStorage.acceptCmds ⟨none, [], path⟩ log.opLog ≠ [] := by
  obtain ⟨addr, opLog⟩ := log
  obtain ⟨cmd, mem, valid⟩ := usable
  induction opLog with
  | nil => cases mem
  | cons first rest ih =>
    cases done : RegisterStorage.tryToApplyCmdAgainstRegisterState first
        (⟨none, [], path⟩ : StoredRegister S) with
    | ok stored =>
      rw [RegisterStorage.acceptCmds_cons_ok done]
      exact List.cons_ne_nil _ _
    | error error =>
      rw [RegisterStorage.acceptCmds_cons_error done]
      obtain rfl | later := List.mem_cons.mp mem
      · -- a usable command applies to the empty register
        exfalso
        have applies : ∃ stored, RegisterStorage.tryToApplyCmdAgainstRegisterState cmd
            (⟨none, [], path⟩ : StoredRegister S) = .ok stored := by
          cases cmd with
          | edit edit => exact ⟨_, rfl⟩
          | create signed sectionSig =>
            exact ⟨_, (RegisterStorage.tryToApply_none rfl).mpr
              (Or.inl ⟨signed, sectionSig, rfl, ⟨valid, nofun, nofun, trivial⟩, rfl⟩)⟩
        obtain ⟨stored, ok⟩ := applies
        cases done.symm.trans ok
      · exact ih later

section Storing

variable {os : Os S.Name} {self : StorageState S} {disk : Fs S.Name} {data : ReplicatedData S}
  {sectionPk : S.UserKey} {nodeKeypair : S.Keypair} {sectionSig : SectionSig S.toKeyScheme}

theorem held_of_isSome (layout : Layout self.fs) {chunk : Chunk S}
    (stands : (self.fs.get (Item.chunk chunk).path).isSome = true) : Held self.fs (.bytes chunk.address) := by
  obtain ⟨node, stands⟩ := Option.isSome_iff_exists.mp stands
  cases node with
  | directory => exact absurd stands layout.get_path_ne
  | file bytes =>
    obtain ⟨item, same, rfl⟩ := layout.file _ _ stands
    cases item with
    | cmd addr cmd => cases Item.eq_cmd_of_path same
    | chunk other =>
      rw [same] at stands
      exact ⟨other, (DataStorage.chunkAddrToFilepath_injective same).symm, stands⟩

/-- Where nothing is held, all commands of a log that are accepted are stored, or there is no space. -/
theorem update_into_nothing (layout : Layout self.fs) (reliable : os.Reliable)
    {log : ReplicatedRegisterLog S} (nothing : ¬ Held self.fs (.register log.address))
    (space : ((RegisterStorage.Call.update log).run os self).1 ≠ .error .notEnoughSpace) :
    ∀ cmd ∈ RegisterStorage.acceptCmds ⟨none, [], RegisterStore.addressToFilepath S log.address⟩ log.opLog,
      Has ((RegisterStorage.Call.update log).run os self).2.fs (.cmd log.address cmd) := by
  obtain ⟨listed, isLog, outcome⟩ := (RegisterStorage.Call.update log).run_cases layout reliable
  obtain rfl : listed = [] :=
    List.eq_nil_iff_forall_not_mem.mpr fun cmd mem => nothing ⟨cmd, (isLog.mem_iff cmd).mp mem⟩
  have loads : RegisterStorage.loadLog (RegisterStore.addressToFilepath S log.address)
      ([] : List S.Cmd) = .ok ⟨none, [], RegisterStore.addressToFilepath S log.address⟩ := rfl
  obtain ⟨error, -, failed | ⟨cmd, _, isWrite, -⟩⟩ | ⟨stored, loaded, writes⟩ := outcome
  · cases loads.symm.trans failed
  · cases isWrite
  · obtain rfl := Except.ok.inj (loads.symm.trans loaded)
    cases result : ((RegisterStorage.Call.update log).run os self).1 with
    | ok level => exact writes.has level result
    | error error =>
      rw [result, writes.error error result] at space
      exact absurd rfl space

/-- Without faults something is held under the address of usable data after it was stored, or there
was no space. -/
theorem store_held (layout : Layout self.fs) (reliable : os.Reliable) (copy : Copy disk data) (usable : Usable data)
    (space : (DataStorage.store os self data sectionPk nodeKeypair sectionSig).1 ≠ .error .notEnoughSpace) :
    Held (DataStorage.store os self data sectionPk nodeKeypair sectionSig).2.fs data.address := by
  cases copy with
  | @chunk chunk has =>
    have call : DataStorage.store os self (.chunk chunk) sectionPk nodeKeypair sectionSig =
      ChunkStorage.store os self chunk := rfl
    rw [call] at space ⊢
    obtain ⟨stands, same⟩ | ⟨-, same⟩ | ⟨-, -, level, same⟩ :=
      ChunkStorage.store_cases layout reliable chunk
    · rw [same]
      exact held_of_isSome layout stands
    · rw [same] at space
      exact absurd rfl space
    · rw [same]
      exact ⟨chunk, rfl, Fs.get_set_self⟩
  | @registerLog log inside =>
    have call : DataStorage.store os self (.registerLog log) sectionPk nodeKeypair sectionSig =
      (RegisterStorage.Call.update log).run os self := rfl
    rw [call] at space ⊢
    by_cases held : Held self.fs (.register log.address)
    · exact held.mono ((RegisterStorage.Call.update log).run_grows layout reliable).kept
    · obtain ⟨cmd, mem⟩ := List.exists_mem_of_ne_nil _ (acceptCmds_ne_nil usable)
      exact ⟨cmd, update_into_nothing layout reliable held space cmd mem⟩

theorem store_copy (sectionPk : S.UserKey) (nodeKeypair : S.Keypair)
    (sectionSig : SectionSig S.toKeyScheme) (layout : Layout self.fs) (reliable : os.Reliable)
    (copy : Copy disk data) : Layout (DataStorage.store os self data sectionPk nodeKeypair sectionSig).2.fs ∧
      (∀ item, Has self.fs item → Has (DataStorage.store os self data sectionPk nodeKeypair sectionSig).2.fs item) ∧
      ∀ item, Has (DataStorage.store os self data sectionPk nodeKeypair sectionSig).2.fs item →
        Has self.fs item ∨ Has disk item ∧ item.address = data.address := by
  obtain ⟨items, grows, cmds, chunks⟩ := DataStorage.store_grows data sectionPk nodeKeypair
    sectionSig layout reliable
  refine ⟨grows.layout, grows.kept, fun item has => (grows.new item has).imp id fun mem => ?_⟩
  cases item with
  | chunk chunk =>
    obtain rfl := chunks chunk mem
    cases copy with
    | chunk onDisk => exact ⟨onDisk, rfl⟩
  | cmd addr cmd =>
    obtain ⟨call, isCall, rfl, inside⟩ := cmds addr cmd mem
    cases copy with
    | chunk onDisk => cases isCall
    | registerLog onDisk =>
      cases isCall
      exact ⟨onDisk cmd inside, rfl⟩

end Storing

/-! ## A round -/

/-- The disk of the receiver during an exchange: all it had at the start, and besides that only items
of the holder. -/
structure Between (start disk fs : Fs S.Name) : Prop where
  layout : Layout fs
  kept : ∀ item, Has start item → Has fs item
  new : ∀ item, Has fs item → Has start item ∨ Has disk item

theorem Between.store {self : StorageState S} {sectionPk : S.UserKey} {nodeKeypair : S.Keypair}
    {sectionSig : SectionSig S.toKeyScheme} (between : Between start disk self.fs)
    (reliable : os.Reliable) (copy : Copy disk data) :
    Between start disk (DataStorage.store os self data sectionPk nodeKeypair sectionSig).2.fs := by
  obtain ⟨layout, kept, new⟩ :=
    store_copy sectionPk nodeKeypair sectionSig between.layout reliable copy
  refine ⟨layout, fun item has => kept item (between.kept item has), fun item has => ?_⟩
  obtain old | ⟨onDisk, -⟩ := new item has
  · exact between.new item old
  · exact Or.inr onDisk

theorem Between.filed {fs : Fs S.Name} (between : Between start disk fs)
    (filed : DataStorage.Filed start) (filedDisk : DataStorage.Filed disk) : DataStorage.Filed fs := by
  intro addr cmd has
  obtain old | onDisk := between.new _ has
  · exact filed addr cmd old
  · exact filedDisk addr cmd onDisk

namespace Replication

variable {nodes : Replication S} {round : Round S} {dataSenderHas addresses : List DataAddress}

/-- The disks of both nodes are whole, and every command is stored under the address it is for. -/
structure WellKept (nodes : Replication S) (start : Fs S.Name) : Prop where
  layout : Layout start
  filed : DataStorage.Filed start
  disk_layout : Layout nodes.disk
  disk_filed : DataStorage.Filed nodes.disk

/-- What the holder sends is its own, not what the receiver has, and meant for it. -/
structure Chosen (nodes : Replication S) (dataSenderHas addresses : List DataAddress) : Prop where
  nonempty : addresses ≠ []
  nodup : addresses.Nodup
  held : ∀ address ∈ addresses, Held nodes.disk address
  missing : ∀ address ∈ addresses, address ∉ dataSenderHas
  relevant : ∀ address ∈ addresses, nodes.holders.isHolder nodes.receiver address = true

theorem answer_eq_some (layout : Layout nodes.disk) (filed : DataStorage.Filed nodes.disk)
    (answered : nodes.answer round dataSenderHas = some addresses) : Chosen nodes dataSenderHas addresses := by
  unfold answer DataHolders.getMissingDataForNode at answered
  split at answered
  · cases answered
  · simp only at answered
    split at answered
    · cases answered
    · rename_i nonempty
      obtain rfl := Option.some.inj answered
      have perm := round.shuffle_perm (DataStorage.dataAddrs round.listing nodes.disk)
      have chosen := List.take_sublist maxReplicationBatchSize
        ((round.shuffle (DataStorage.dataAddrs round.listing nodes.disk)).filter fun data =>
          !dataSenderHas.contains data && nodes.holders.isHolder nodes.receiver data)
      have each : ∀ address ∈ List.take maxReplicationBatchSize _,
          address ∈ round.shuffle (DataStorage.dataAddrs round.listing nodes.disk) ∧
          address ∉ dataSenderHas ∧ nodes.holders.isHolder nodes.receiver address = true :=
        fun address mem => by simpa using List.mem_filter.mp (chosen.subset mem)
      refine ⟨fun none => nonempty (List.isEmpty_iff.mpr none), ?_, fun address mem => ?_,
        fun address mem => (each address mem).2.1, fun address mem => (each address mem).2.2⟩
      · exact chosen.nodup ((perm.nodup_iff.mpr (DataStorage.nodup_dataAddrs layout filed)).filter _)
      · exact DataStorage.held_of_mem_dataAddrs layout filed (perm.subset (each address mem).1)

/-! ## Whole exchanges -/

def missing (nodes : Replication S) (start : Fs S.Name) : Finset DataAddress :=
  ((DataStorage.dataAddrs .inOrder nodes.disk).filter fun data =>
    !(DataStorage.dataAddrs .inOrder start).contains data &&
      nodes.holders.isHolder nodes.receiver data).toFinset

theorem mem_missing {start : Fs S.Name} (wellKept : nodes.WellKept start) {address : DataAddress} :
    address ∈ nodes.missing start ↔ Held nodes.disk address ∧ ¬ Held start address ∧
      nodes.holders.isHolder nodes.receiver address = true := by
  have reliable : (Os.inOrder : Os S.Name).Reliable := Os.inOrder_reliable
  have onDisk : address ∈ DataStorage.dataAddrs .inOrder nodes.disk ↔ Held nodes.disk address :=
    DataStorage.mem_dataAddrs wellKept.disk_layout reliable wellKept.disk_filed
  have atStart : address ∈ DataStorage.dataAddrs .inOrder start ↔ Held start address :=
    DataStorage.mem_dataAddrs wellKept.layout reliable wellKept.filed
  simp [missing, onDisk, atStart]

/-- A batch that the receiver can store: its disk does not fail, and every log has something that an
empty register accepts. -/
structure Deliverable (nodes : Replication S) (before : Exchange S) (round : Round S) : Prop where
  storing : round.storing.Reliable
  relisting : round.relisting.Reliable
  usable : ∀ dataSenderHas dataBatch, before.pending = some dataSenderHas →
    nodes.batch round dataSenderHas = some dataBatch → ∀ data ∈ dataBatch, Usable data

/-- An exchange with a request under way: the request lists what the receiver has, all that was sent
among it, and no batch was empty. -/
structure Open (nodes : Replication S) (start : Fs S.Name) (now : Exchange S)
    (dataSenderHas : List DataAddress) : Prop where
  between : Between start nodes.disk now.storage.fs
  listed : ∀ address, address ∈ dataSenderHas ↔ Held now.storage.fs address
  stored : ∀ address ∈ now.sent, Held now.storage.fs address
  batches : now.batches.length ≤ now.sent.length

/-- What holds after every round: addresses are sent once, and each message but two has sent one. -/
structure Paged (nodes : Replication S) (start : Fs S.Name) (now : Exchange S) : Prop where
  nodup : now.sent.Nodup
  missing : ∀ address ∈ now.sent, address ∈ nodes.missing start
  requests : now.requests.length ≤ now.sent.length + 1
  batches : now.batches.length ≤ now.sent.length + 1
  pending : ∀ dataSenderHas, now.pending = some dataSenderHas → Open nodes start now dataSenderHas

variable {start : Fs S.Name} {before : Exchange S} {os : Os S.Name} {storage : StorageState S}
  {disk : Fs sampleStorage.Name}

theorem replicateItems_held {context : NodeContext S}
    {sectionSig : SectionSig S.toKeyScheme} {disk : Fs S.Name} {dataBatch : List (ReplicatedData S)} (between : Between start disk storage.fs)
    (reliable : os.Reliable) (copies : ∀ data ∈ dataBatch, Copy disk data) (usable : ∀ data ∈ dataBatch, Usable data)
    (space : (replicateItems os context sectionSig storage dataBatch).isFull = false) :
    Between start disk (replicateItems os context sectionSig storage dataBatch).storage.fs ∧
      (∀ item, Has storage.fs item → Has (replicateItems os context sectionSig storage dataBatch).storage.fs item) ∧
      ∀ data ∈ dataBatch, Held (replicateItems os context sectionSig storage dataBatch).storage.fs data.address := by
  refine replicateItems_induction (motive := fun done self => Between start disk self.fs ∧
    (∀ item, Has storage.fs item → Has self.fs item) ∧ ∀ data ∈ done, Held self.fs data.address)
    ⟨between, fun _ has => has, by simp⟩ ?_ space
  rintro done self data mem ⟨between, kept, held⟩ stored
  have copy := copies data mem
  obtain ⟨-, keeps, -⟩ := store_copy context.sectionPk context.keypair sectionSig between.layout
    reliable copy
  refine ⟨between.store reliable copy, fun item has => keeps item (kept item has),
    fun other inside => ?_⟩
  obtain old | new := List.mem_append.mp inside
  · exact (held other old).mono keeps
  · rw [List.mem_singleton.mp new]
    exact store_held between.layout reliable copy (usable data mem) stored

theorem Paged.step (wellKept : nodes.WellKept start) (paged : Paged nodes start before)
    (deliverable : nodes.Deliverable before round) : Paged nodes start (nodes.step before round) := by
  have turn := nodes.step_turn before round
  generalize nodes.step before round = now at turn ⊢
  cases turn with
  | ended => exact paged
  | complete => exact ⟨paged.nodup, paged.missing, paged.requests, paged.batches, nofun⟩
  | @stored dataSenderHas addresses dataBatch after request pending answered isBatch isAfter asks =>
    have ⟨between, listed, stored, batches⟩ := paged.pending _ pending
    have chosen := answer_eq_some wellKept.disk_layout wellKept.disk_filed answered
    have sublist : (dataBatch.map (·.address)).Sublist addresses := by
      rw [isBatch]
      exact sendOut_sublist wellKept.disk_layout chosen.held
    have copies : ∀ data ∈ dataBatch, Copy nodes.disk data := by
      rw [isBatch]
      exact fun data mem => copy_of_mem_sendOut wellKept.disk_layout chosen.held mem
    have usable := deliverable.usable dataSenderHas dataBatch pending (by
      rw [batch, answered, isBatch]
      rfl)
    have requests := paged.requests
    have asked : ∀ dataIHave, request = some dataIHave → after.isFull = false ∧
        0 < dataBatch.length ∧ dataIHave = DataStorage.dataAddrs round.relisting after.storage.fs := by
      rintro dataIHave rfl
      cases full : after.isFull with
      | true => simp [full] at asks
      | false =>
        cases dataBatch with
        | nil => simp at asks
        | cons data rest => simpa [full] using asks
    constructor
    · -- what was sent is listed, and what is listed is not chosen
      rw [Exchange.sent_append, List.nodup_append]
      refine ⟨paged.nodup, sublist.nodup chosen.nodup, fun address old other new => ?_⟩
      rintro rfl
      exact chosen.missing address (sublist.subset new) ((listed address).mpr (stored address old))
    · rw [Exchange.sent_append]
      intro address mem
      obtain old | new := List.mem_append.mp mem
      · exact paged.missing address old
      · have inside := sublist.subset new
        refine (mem_missing wellKept).mpr ⟨chosen.held _ inside, fun held => ?_,
          chosen.relevant _ inside⟩
        exact chosen.missing _ inside ((listed address).mpr (held.mono between.kept))
    · -- another request follows only a batch with something in it
      simp only [Exchange.sent_append, List.length_append, List.length_map]
      cases request with
      | none => simp only [Option.toList_none, List.length_nil]; omega
      | some dataIHave =>
        obtain ⟨-, something, -⟩ := asked dataIHave rfl
        simp only [Option.toList_some, List.length_singleton]
        omega
    · simp only [Exchange.sent_append, List.length_append, List.length_map, List.length_singleton]
      omega
    · intro dataIHave isRequest
      obtain ⟨space, something, rfl⟩ := asked dataIHave isRequest
      subst isAfter
      obtain ⟨between', kept, held⟩ :=
        replicateItems_held between deliverable.storing copies usable space
      refine ⟨between', fun address => ?_, fun address mem => ?_, ?_⟩
      · exact DataStorage.mem_dataAddrs between'.layout deliverable.relisting
          (between'.filed wellKept.filed wellKept.disk_filed)
      · rw [Exchange.sent_append] at mem
        obtain old | new := List.mem_append.mp mem
        · exact (stored address old).mono kept
        · obtain ⟨data, inside, rfl⟩ := List.mem_map.mp new
          exact held data inside
      · simp only [Exchange.sent_append, List.length_append, List.length_map, List.length_singleton]
        omega

theorem Paged.initial (wellKept : nodes.WellKept storage.fs)
    (reliable : os.Reliable) : Paged nodes storage.fs (.start os storage) where
  nodup := List.nodup_nil
  missing := by simp [Exchange.sent, Exchange.start]
  requests := Nat.le_refl _
  batches := Nat.zero_le _
  pending := by
    rintro _ ⟨⟩
    refine ⟨⟨wellKept.layout, fun _ has => has, fun _ has => Or.inl has⟩, fun address => ?_, ?_,
      Nat.zero_le _⟩
    · exact DataStorage.mem_dataAddrs wellKept.layout reliable wellKept.filed
    · simp [Exchange.sent, Exchange.start]

/-- When the receiver can store every batch, the number of messages is bounded by the number of
addresses that were missing at the start, and no address is sent more often than that. -/
theorem exchange_bounded (nodes : Replication S) (os : Os S.Name) (storage : StorageState S)
    (rounds : List (Round S)) (wellKept : nodes.WellKept storage.fs) (reliable : os.Reliable)
    (deliverable : Runs.Throughout nodes.step nodes.Deliverable (.start os storage) rounds) :
    (nodes.exchange os storage rounds).requests.length + (nodes.exchange os storage rounds).batches.length ≤
      2 * (nodes.missing storage.fs).card + 2 ∧
    ∀ address, (nodes.exchange os storage rounds).sent.count address ≤ (nodes.missing storage.fs).card := by
  have paged : Paged nodes storage.fs (nodes.exchange os storage rounds) :=
    deliverable.induction (.initial wellKept reliable) fun _ _ paged here => paged.step wellKept here
  obtain ⟨nodup, missing, requests, batches, -⟩ := paged
  have few : (nodes.exchange os storage rounds).sent.length ≤ (nodes.missing storage.fs).card := by
    rw [← List.toFinset_card_of_nodup nodup]
    exact Finset.card_le_card fun address mem => missing address (List.mem_toFinset.mp mem)
  refine ⟨by omega, fun address => ?_⟩
  exact List.count_le_length.trans few

/-! ## Samples -/

def sampleNodes (disk : Fs sampleStorage.Name) : Replication sampleStorage :=
  ⟨⟨[sampleRegisterName], fun _ => compare, 4⟩, sampleRegisterName, sampleContext, ⟨0, 0, 0⟩, disk⟩

def sampleRound (storing : Os sampleStorage.Name) : Round sampleStorage :=
  ⟨sampleOs, id, fun _ => List.Perm.refl _, sampleOs, storing, sampleOs⟩

def sampleRequests : List (DataStorage.Request sampleStorage) :=
  [DataStorage.sampleStore (.registerWrite (sampleCreate sampleAddress 1 1)),
    DataStorage.sampleStore (.chunk (.new [7]))]

def sampleDisk : Fs sampleStorage.Name :=
  (DataStorage.runAll (DataStorage.new .empty (.new 1000 1000)) sampleRequests).fs

theorem sampleDisk_spec : Layout sampleDisk ∧ DataStorage.Filed sampleDisk ∧
    ∀ addr cmd, Has sampleDisk (.cmd addr cmd) → cmd = sampleCreate sampleAddress 1 1 := by
  have addressed : ∀ request ∈ sampleRequests, DataStorage.WellAddressed request.data := by
    intro request mem
    obtain rfl | rfl := List.mem_pair.mp mem
    · trivial
    · trivial
  obtain ⟨layout, filed⟩ := DataStorage.filed_runAll (.new 1000 1000) sampleRequests addressed
  refine ⟨layout, filed, ?_⟩
  have only : Layout sampleDisk ∧ ∀ addr cmd, Has sampleDisk (.cmd addr cmd) →
      cmd = sampleCreate sampleAddress 1 1 := by
    refine Runs.run_induction (motive := fun self : StorageState sampleStorage => Layout self.fs ∧
      ∀ addr cmd, Has self.fs (.cmd addr cmd) → cmd = sampleCreate sampleAddress 1 1)
      ⟨placed_empty, fun _ _ has => absurd has (not_has_empty _)⟩ ?_
    rintro self ⟨layout, only⟩ request mem
    refine ⟨(request.apply_grows layout).1, fun addr cmd has => ?_⟩
    obtain old | ⟨call, isCall, -, inside⟩ := DataStorage.Request.has_apply layout has
    · exact only addr cmd old
    · obtain rfl | rfl := List.mem_pair.mp mem
      · cases isCall
        exact List.mem_singleton.mp inside
      · cases isCall
  exact only.2

theorem sampleNodes_wellKept (layout : Layout disk)
    (filed : DataStorage.Filed disk) : (sampleNodes disk).WellKept sampleEmpty.fs where
  layout := placed_empty
  filed _ _ has := absurd has (not_has_empty _)
  disk_layout := layout
  disk_filed := filed

theorem sampleRound_deliverable (layout : Layout disk) (filed : DataStorage.Filed disk)
    (alone : ∀ addr cmd, Has disk (.cmd addr cmd) → StandsAlone cmd) (before : Exchange sampleStorage) :
    (sampleNodes disk).Deliverable before (sampleRound sampleOs) where
  storing := sampleOs_reliable
  relisting := sampleOs_reliable
  usable dataSenderHas dataBatch _ isBatch data mem := by
    obtain ⟨addresses, answered, rfl⟩ := Option.map_eq_some_iff.mp isBatch
    have chosen : Chosen (sampleNodes disk) dataSenderHas addresses :=
      answer_eq_some layout filed answered
    exact usable_of_mem_sendOut layout sampleOs_reliable alone chosen.held mem

theorem exchange_bounded_sampleNodes : ((sampleNodes sampleDisk).exchange sampleOs sampleEmpty
        [sampleRound sampleOs, sampleRound sampleOs]).requests.length +
      ((sampleNodes sampleDisk).exchange sampleOs sampleEmpty
        [sampleRound sampleOs, sampleRound sampleOs]).batches.length ≤
      2 * ((sampleNodes sampleDisk).missing sampleEmpty.fs).card + 2 := by
  obtain ⟨layout, filed, only⟩ := sampleDisk_spec
  have signed : StandsAlone (sampleCreate sampleAddress 1 1) := by
    show _ = true
    decide +kernel
  have alone : ∀ addr cmd, Has sampleDisk (.cmd addr cmd) → StandsAlone cmd := by
    intro addr cmd has
    rw [only addr cmd has]
    exact signed
  have deliverable := sampleRound_deliverable layout filed alone
  exact (exchange_bounded (sampleNodes sampleDisk) sampleOs sampleEmpty
    [sampleRound sampleOs, sampleRound sampleOs] (sampleNodes_wellKept layout filed)
    sampleOs_reliable ⟨deliverable _, deliverable _, trivial⟩).1

def sampleReadOnlyOs : Os sampleStorage.Name :=
  { sampleFailingOs with
    fault := fun call =>
      match call with
      | .createDir _ => some (.other 30)
      | .create _ => some (.other 30)
      | _ => none }

def sampleChunkDisk : Fs sampleStorage.Name :=
  (DataStorage.store sampleOs sampleEmpty (.chunk (.new [7])) 1 1 ⟨0, 0, 0⟩).2.fs

theorem batch_sampleRound {storing : Os sampleStorage.Name}
    {chunk : Chunk sampleStorage} {dataSenderHas : List DataAddress} (has : Has disk (.chunk chunk))
    (answered : (sampleNodes disk).answer (sampleRound storing) dataSenderHas = some [.bytes chunk.address]) :
    (sampleNodes disk).batch (sampleRound storing) dataSenderHas = some [.chunk chunk] := by
  have read : ChunkStorage.getChunk sampleOs disk chunk.address = .ok chunk :=
    (ChunkStorage.getChunk_eq_ok (sampleOs_reliable _)).mpr has
  rw [batch, answered, Option.map_some, sendOutDataForReplication]
  simp only [sampleRound, sampleNodes, DataStorage.getFromLocalStore, read, List.filterMap_cons,
    List.filterMap_nil]
  rfl

theorem step_sampleReadOnlyOs (requests : List (List DataAddress))
    (batches : List (List (ReplicatedData sampleStorage))) :
    (sampleNodes sampleChunkDisk).step ⟨sampleEmpty, some [], false, requests, batches⟩
        (sampleRound sampleReadOnlyOs) =
      ⟨sampleEmpty, some [], false, requests ++ [[]], batches ++ [[.chunk (.new [7])]]⟩ := by
  have answered : (sampleNodes sampleChunkDisk).answer (sampleRound sampleReadOnlyOs) [] =
      some [.bytes (.new [7] : Chunk sampleStorage).address] := by
    decide +kernel
  have has : Has sampleChunkDisk (.chunk (.new [7])) := by
    show _ = _
    decide +kernel
  have sends := batch_sampleRound has answered
  simp only [step, sends]
  rfl

theorem exchange_sampleReadOnlyOs (count : Nat) : (sampleNodes sampleChunkDisk).exchange sampleOs sampleEmpty
        (List.replicate count (sampleRound sampleReadOnlyOs)) =
      ⟨sampleEmpty, some [], false, List.replicate (count + 1) [], List.replicate count [.chunk (.new [7])]⟩ := by
  induction count with
  | zero => rfl
  | succ count ih =>
    rw [exchange] at ih
    rw [List.replicate_succ', exchange, Runs.run_append, ih, Runs.run_cons, Runs.run_nil,
      step_sampleReadOnlyOs, ← List.replicate_succ', ← List.replicate_succ']

/-- A receiver that cannot write to its disk is sent a chunk again and again. -/
theorem exchange_unbounded : ((sampleNodes sampleChunkDisk).missing sampleEmpty.fs).card = 1 ∧
    ∀ count, ((sampleNodes sampleChunkDisk).exchange sampleOs sampleEmpty
        (List.replicate count (sampleRound sampleReadOnlyOs))).requests.length = count + 1 ∧
      ((sampleNodes sampleChunkDisk).exchange sampleOs sampleEmpty
        (List.replicate count (sampleRound sampleReadOnlyOs))).sent =
          List.replicate count (.bytes (.new [7] : Chunk sampleStorage).address) := by
  refine ⟨by decide +kernel, fun count => ?_⟩
  rw [exchange_sampleReadOnlyOs]
  refine ⟨List.length_replicate, ?_⟩
  rw [Exchange.sent, List.flatten_replicate_singleton, List.map_replicate]
  rfl

end Replication

end SafeNetwork
