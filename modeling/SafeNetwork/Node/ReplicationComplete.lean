import SafeNetwork.Library.Ranking
import SafeNetwork.Node.ReplicationPaging
import SafeNetwork.Storage.RegisterArrival

/-!
# Replication is complete for what was missing as a whole

What the receiver misses is found by comparing addresses, and a register is a growing log under one
address. So a receiver that has some of the commands of a register is never sent the others. When the
exchange ends without faults and with space left, the receiver has everything that is meant for it
exactly if at the start it had all or nothing under each address.
-/

namespace SafeNetwork

open Std Crdt FileSystem BoundedFill

variable {S : StorageScheme}

/-! ## The closest members -/

namespace DataHolders

variable {self : DataHolders} {node : XorName} {data : DataAddress}

/-- A node is among the members closest to a name: it is a member, and fewer members than there are
copies are closer. -/
def Closest (self : DataHolders) (node name : XorName) : Prop :=
  node ∈ self.members ∧
    (self.members.filter fun other => self.cmpDistance name other node = .lt).length <
      self.dataCopyCount

/-- Distances to one name are a total order of the names. -/
structure Ordered (holders : DataHolders) : Prop where
  nodup : holders.members.Nodup
  transCmp : ∀ name, TransCmp (holders.cmpDistance name)
  lawfulEqCmp : ∀ name, LawfulEqCmp (holders.cmpDistance name)

theorem isHolder_iff (ordered : self.Ordered) : self.isHolder node data = true ↔ self.Closest node data.name := by
  have := ordered.transCmp data.name
  have := ordered.lawfulEqCmp data.name
  have perm := List.mergeSort_perm self.members fun lhs rhs =>
    (self.cmpDistance data.name lhs rhs).isLE
  have sorted := Ranking.pairwise_mergeSort (self.cmpDistance data.name) self.members
  have apart : (self.members.mergeSort fun lhs rhs => (self.cmpDistance data.name lhs rhs).isLE).Pairwise
      fun lhs rhs => self.cmpDistance data.name lhs rhs ≠ .eq :=
    (perm.nodup_iff.mpr ordered.nodup).imp fun differ same => differ (LawfulEqCmp.eq_of_compare same)
  rw [isHolder, holderList, List.contains_iff_mem, Ranking.mem_take_iff (Ranking.pairwise_lt sorted apart),
    perm.mem_iff, (perm.filter _).length_eq]
  rfl

end DataHolders

/-! ## Whole logs -/

section Logs

variable {op : CreateRegister S.toRegisterScheme} {path : S.Path} {listed log : List S.Cmd}
  {stored : StoredRegister S}

/-- Commands that belong to a register and can be applied in any order are all accepted after others
of them. -/
theorem acceptCmds_belongs (loaded : RegisterStorage.loadLog path listed = .ok stored)
    (all : ∀ cmd ∈ listed ++ log, RegisterStorage.Belongs op cmd) (nodup : (listed ++ log).Nodup)
    (order : AnyOrder fun edit : SignedRegisterEdit S.toRegisterScheme =>
      .edit edit ∈ listed ++ log) : RegisterStorage.acceptCmds stored log = log := by
  induction log generalizing listed stored with
  | nil => rfl
  | cons cmd rest ih =>
    have split : listed ++ cmd :: rest = listed ++ [cmd] ++ rest := by simp
    rw [split] at all nodup order
    have fits : Fits maxRegNumEntries ∅ ((editsOf (listed ++ [cmd])).map (·.hash)) := by
      have each : AnyOrder (· ∈ editsOf (listed ++ [cmd])) :=
        order.mono fun edit mem => List.mem_append_left _ (mem_editsOf.mp mem)
      exact (anyOrder_iff (nodup_editsOf nodup.of_append_left)).mp each _ (List.Perm.refl _)
    rw [RegisterStorage.editsOf_append, List.map_append, fits_append] at fits
    obtain ⟨stored', done⟩ : ∃ stored',
        RegisterStorage.tryToApplyCmdAgainstRegisterState cmd stored = .ok stored' := by
      refine RegisterStorage.tryToApply_belongs loaded (fun other mem => all other (by simp [mem]))
        fits.1 (all cmd (by simp)) fun edit isEdit => ?_
      subst isEdit
      simpa [RegisterCmd.edit?, Fits] using fits.2
    have pushed : (RegisterStorage.pushCmd listed cmd ++ rest).Sublist (listed ++ [cmd] ++ rest) := by
      unfold RegisterStorage.pushCmd
      split
      · exact (List.sublist_append_left _ _).append_right _
      · exact List.Sublist.refl _
    rw [RegisterStorage.acceptCmds_cons_ok done,
      ih (RegisterStorage.loadLog_pushCmd loaded done)
        (fun other mem => all other (pushed.subset mem)) (pushed.nodup nodup)
        (order.mono fun edit mem => pushed.subset mem)]

end Logs

/-- The commands of a register belong to one creation and can be applied in any order. -/
structure Orderly (disk : Fs S.Name) (op : CreateRegister S.toRegisterScheme) : Prop where
  belongs : ∀ cmd, Has disk (.cmd op.address cmd) → RegisterStorage.Belongs op cmd
  order : AnyOrder (heldEdits disk op.address)

section Copies

variable {os reading : Os S.Name} {self : StorageState S} {disk : Fs S.Name}
  {data : ReplicatedData S} {sectionPk : S.UserKey} {nodeKeypair : S.Keypair}
  {sectionSig : SectionSig S.toKeyScheme} {address : DataAddress} {addresses : List DataAddress}

/-- Everything of an address, in the form in which it is sent. -/
inductive WholeCopy (disk : Fs S.Name) : ReplicatedData S → Prop
  | chunk {chunk : Chunk S} : Has disk (.chunk chunk) → WholeCopy disk (.chunk chunk)
  | registerLog {op : CreateRegister S.toRegisterScheme} {log : List S.Cmd} :
      Orderly disk op → IsLog disk op.address log →
      WholeCopy disk (.registerLog ⟨op.address, log⟩)

theorem WholeCopy.copy (whole : WholeCopy disk data) : Copy disk data := by
  cases whole with
  | chunk has => exact .chunk has
  | registerLog orderly isLog => exact .registerLog fun cmd mem => (isLog.mem_iff cmd).mp mem

theorem exists_wholeCopy (layout : Layout disk) (reliable : reading.Reliable) (held : Held disk address)
    (registers : ∀ addr, address = .register addr → ∃ op : CreateRegister S.toRegisterScheme,
      op.address = addr ∧ Orderly disk op) :
    ∃ data, DataStorage.getFromLocalStore reading disk address = .ok data ∧ WholeCopy disk data := by
  cases address with
  | safeKey name => exact absurd held id
  | spentbook addr => exact absurd held id
  | bytes addr =>
    obtain ⟨chunk, rfl, has⟩ := held
    refine ⟨.chunk chunk, ?_, .chunk has⟩
    rw [DataStorage.getFromLocalStore, (ChunkStorage.getChunk_eq_ok (reliable _)).mpr has]
    rfl
  | register addr =>
    obtain ⟨op, rfl, orderly⟩ := registers addr rfl
    have isLog := RegisterStorage.storedLog_isLog layout reliable op.address
    have belongs : ∀ cmd ∈ RegisterStorage.storedLog reading disk op.address,
        RegisterStorage.Belongs op cmd := fun cmd mem => orderly.belongs cmd ((isLog.mem_iff cmd).mp mem)
    obtain ⟨stored, loaded⟩ := RegisterStorage.exists_loadLog
      (RegisterStore.addressToFilepath S op.address) belongs (orderly.order.fits isLog)
    have got : ∃ data, DataStorage.getFromLocalStore reading disk (.register op.address) = .ok data := by
      simp only [DataStorage.getFromLocalStore, RegisterStorage.getRegisterReplica,
        RegisterStorage.tryLoadStoredRegister_eq, loaded]
      exact ⟨_, rfl⟩
    obtain ⟨data, got⟩ := got
    obtain rfl := getFromLocalStore_register got
    exact ⟨_, got, .registerLog orderly isLog⟩

theorem eq_of_has_chunk {fs : Fs S.Name} {chunk : Chunk S} {item : Item S}
    (has : Has fs (.chunk chunk)) (other : Has fs item) (same : item.address = .bytes chunk.address) :
    item = .chunk chunk := by
  cases item with
  | cmd addr cmd => cases same
  | chunk found =>
    have addr : found.address = chunk.address := DataAddress.bytes.inj same
    have path : (Item.chunk found).path = (Item.chunk chunk).path := by
      rw [Item.path_chunk, Item.path_chunk, addr]
    rw [Has, path, has] at other
    exact Item.eq_of_path path (by simpa using other.symm)

/-- Without faults everything is stored of an address under which there was nothing, or there is no
space. -/
theorem store_whole (layout : Layout self.fs) (reliable : os.Reliable) (whole : WholeCopy disk data)
    (nothing : ¬ Held self.fs data.address)
    (space : (DataStorage.store os self data sectionPk nodeKeypair sectionSig).1 ≠
      .error .notEnoughSpace) {item : Item S} (has : Has disk item) (same : item.address = data.address) :
    Has (DataStorage.store os self data sectionPk nodeKeypair sectionSig).2.fs item := by
  cases whole with
  | @chunk chunk onDisk =>
    rw [eq_of_has_chunk onDisk has same]
    have call : DataStorage.store os self (.chunk chunk) sectionPk nodeKeypair sectionSig =
      ChunkStorage.store os self chunk := rfl
    rw [call] at space ⊢
    obtain ⟨stands, -⟩ | ⟨-, result⟩ | ⟨-, -, level, result⟩ :=
      ChunkStorage.store_cases layout reliable chunk
    · exact absurd (held_of_isSome layout stands) nothing
    · rw [result] at space
      exact absurd rfl space
    · rw [result]
      exact Fs.get_set_self
  | @registerLog op log orderly isLog =>
    cases item with
    | chunk chunk => cases same
    | cmd addr cmd =>
      obtain rfl : addr = op.address := DataAddress.register.inj same
      have call : DataStorage.store os self (.registerLog ⟨op.address, log⟩) sectionPk nodeKeypair
        sectionSig = (RegisterStorage.Call.update ⟨op.address, log⟩).run os self := rfl
      rw [call] at space ⊢
      refine update_into_nothing layout reliable nothing space cmd ?_
      have loaded : RegisterStorage.loadLog (RegisterStore.addressToFilepath S op.address)
        ([] : List S.Cmd) = .ok ⟨none, [], RegisterStore.addressToFilepath S op.address⟩ := rfl
      have accepted : RegisterStorage.acceptCmds
          ⟨none, [], RegisterStore.addressToFilepath S op.address⟩ log = log :=
        acceptCmds_belongs loaded
          (fun cmd mem => orderly.belongs cmd ((isLog.mem_iff cmd).mp mem)) isLog.nodup
          (orderly.order.mono fun edit mem => (isLog.mem_iff _).mp mem)
      rw [accepted]
      exact (isLog.mem_iff cmd).mpr has

end Copies

/-! ## Rounds without faults -/

structure Round.Faultless (round : Round S) : Prop where
  listing : round.listing.Reliable
  reading : round.reading.Reliable
  storing : round.storing.Reliable
  relisting : round.relisting.Reliable

namespace Replication

variable {nodes : Replication S} {round : Round S} {dataSenderHas addresses : List DataAddress}
  {start : Fs S.Name} {before : Exchange S}

def OrderlyRegisters (nodes : Replication S) : Prop :=
  ∀ addr, nodes.holders.isHolder nodes.receiver (.register addr) = true →
    Held nodes.disk (.register addr) →
    ∃ op : CreateRegister S.toRegisterScheme, op.address = addr ∧ Orderly nodes.disk op

theorem answer_eq_none (answered : nodes.answer round dataSenderHas = none) {address : DataAddress}
    (listed : address ∈ DataStorage.dataAddrs round.listing nodes.disk)
    (relevant : nodes.holders.isHolder nodes.receiver address = true) : address ∈ dataSenderHas := by
  have mine : address ∈ round.shuffle (DataStorage.dataAddrs round.listing nodes.disk) :=
    (round.shuffle_perm _).symm.subset listed
  unfold answer DataHolders.getMissingDataForNode at answered
  split at answered
  · rename_i empty
    rw [List.isEmpty_iff.mp empty] at mine
    cases mine
  · simp only at answered
    split at answered
    · rename_i none
      by_contra missing
      have inside : address ∈ (round.shuffle (DataStorage.dataAddrs round.listing nodes.disk)).filter
          fun data => !dataSenderHas.contains data && nodes.holders.isHolder nodes.receiver data :=
        List.mem_filter.mpr ⟨mine, by simp [missing, relevant]⟩
      rw [List.isEmpty_iff, List.take_eq_nil_iff] at none
      obtain zero | empty := none
      · cases zero
      · rw [empty] at inside
        cases inside
    · cases answered

theorem sendOut_whole (wellKept : nodes.WellKept start) (registers : nodes.OrderlyRegisters)
    (reliable : round.reading.Reliable) (chosen : Chosen nodes dataSenderHas addresses) :
    sendOutDataForReplication round.reading nodes.disk addresses ≠ [] ∧
      ∀ data ∈ sendOutDataForReplication round.reading nodes.disk addresses,
        WholeCopy nodes.disk data ∧ data.address ∈ addresses := by
  have each : ∀ address ∈ addresses, ∃ data,
      DataStorage.getFromLocalStore round.reading nodes.disk address = .ok data ∧
        WholeCopy nodes.disk data := by
    intro address mem
    refine exists_wholeCopy wellKept.disk_layout reliable (chosen.held address mem) ?_
    rintro addr rfl
    exact registers addr (chosen.relevant _ mem) (chosen.held _ mem)
  constructor
  · obtain ⟨address, mem⟩ := List.exists_mem_of_ne_nil _ chosen.nonempty
    obtain ⟨data, got, -⟩ := each address mem
    have inside : data ∈ sendOutDataForReplication round.reading nodes.disk addresses :=
      List.mem_filterMap.mpr ⟨address, mem, by rw [got]; rfl⟩
    exact List.ne_nil_of_mem inside
  · intro data mem
    obtain ⟨address, inside, got⟩ := exists_read_of_mem_sendOut mem
    obtain ⟨found, same, whole⟩ := each address inside
    obtain rfl := Except.ok.inj (got.symm.trans same)
    obtain ⟨-, rfl⟩ := getFromLocalStore_copy wellKept.disk_layout (chosen.held address inside) got
    exact ⟨whole, inside⟩

/-- The disk of the receiver while it receives: it stays as it was under the addresses it had at the
start, and under the others everything of the holder comes at once. -/
structure Filling (nodes : Replication S) (start fs : Fs S.Name) : Prop extends
    Between start nodes.disk fs where
  frozen : ∀ item, Held start item.address → Has fs item → Has start item
  whole : ∀ item, Has nodes.disk item → Held fs item.address → ¬ Held start item.address →
    Has fs item

theorem Filling.store {os : Os S.Name} {self : StorageState S} {data : ReplicatedData S}
    {sectionPk : S.UserKey} {nodeKeypair : S.Keypair} {sectionSig : SectionSig S.toKeyScheme}
    (filling : Filling nodes start self.fs) (reliable : os.Reliable)
    (copy : WholeCopy nodes.disk data) (missing : ¬ Held start data.address)
    (space : (DataStorage.store os self data sectionPk nodeKeypair sectionSig).1 ≠ .error .notEnoughSpace) :
    Filling nodes start (DataStorage.store os self data sectionPk nodeKeypair sectionSig).2.fs := by
  obtain ⟨-, kept, new⟩ :=
    store_copy sectionPk nodeKeypair sectionSig filling.layout reliable copy.copy
  refine ⟨filling.toBetween.store reliable copy.copy, fun item held has => ?_,
    fun item onDisk held absent => ?_⟩
  · obtain old | ⟨-, same⟩ := new item has
    · exact filling.frozen item held old
    · exact absurd (same ▸ held) missing
  · by_cases before : Held self.fs item.address
    · exact kept item (filling.whole item onDisk before absent)
    · obtain ⟨other, has, same⟩ := held_iff.mp held
      obtain old | ⟨-, added⟩ := new other has
      · exact absurd (held_iff.mpr ⟨other, old, same⟩) before
      · rw [← same, added] at before
        exact store_whole filling.layout reliable copy before space onDisk (same.symm.trans added)

/-- The exchange while there is space: requests list what the receiver has, and at the end it has
something under every address that is meant for it. -/
structure Completing (nodes : Replication S) (start : Fs S.Name) (now : Exchange S) : Prop where
  filling : Filling nodes start now.storage.fs
  listed : ∀ dataSenderHas, now.pending = some dataSenderHas →
    ∀ address, address ∈ dataSenderHas ↔ Held now.storage.fs address
  ended : now.pending = none → ∀ address, nodes.holders.isHolder nodes.receiver address = true →
    Held nodes.disk address → Held now.storage.fs address

theorem Completing.step (wellKept : nodes.WellKept start) (registers : nodes.OrderlyRegisters)
    (faultless : round.Faultless) (completing : before.full = false → Completing nodes start before)
    (space : (nodes.step before round).full = false) : Completing nodes start (nodes.step before round) := by
  have turn := nodes.step_turn before round
  generalize nodes.step before round = now at turn space ⊢
  cases turn with
  | ended => exact completing space
  | complete pending answered =>
    obtain ⟨filling, listed, -⟩ := completing space
    refine ⟨filling, nofun, fun _ address relevant held => (listed _ pending address).mp ?_⟩
    exact answer_eq_none answered ((DataStorage.mem_dataAddrs wellKept.disk_layout
      faultless.listing wellKept.disk_filed).mpr held) relevant
  | @stored dataSenderHas addresses dataBatch after request pending answered isBatch isAfter asks =>
    obtain ⟨earlier, notFull⟩ := Bool.or_eq_false_iff.mp space
    obtain ⟨filling, listed, -⟩ := completing earlier
    have chosen := answer_eq_some wellKept.disk_layout wellKept.disk_filed answered
    obtain ⟨nonempty, whole⟩ := sendOut_whole wellKept registers faultless.reading chosen
    rw [← isBatch] at nonempty whole
    subst isAfter
    have filled : Filling nodes start (replicateItems round.storing nodes.context nodes.sectionSig
        before.storage dataBatch).storage.fs := by
      refine replicateItems_induction (motive := fun _ self => Filling nodes start self.fs) filling
        ?_ notFull
      intro done self data mem filling stored
      obtain ⟨copy, inside⟩ := whole data mem
      refine filling.store faultless.storing copy (fun held => ?_) stored
      exact chosen.missing _ inside ((listed _ pending _).mpr (held.mono (completing earlier).filling.kept))
    rw [notFull, List.isEmpty_eq_false_iff.mpr nonempty, Bool.or_false, if_neg Bool.false_ne_true] at asks
    subst asks
    refine ⟨filled, ?_, nofun⟩
    rintro _ ⟨⟩ address
    exact DataStorage.mem_dataAddrs filled.layout faultless.relisting
      (filled.toBetween.filed wellKept.filed wellKept.disk_filed)

/-- The receiver has all or nothing of what the holder has under each address that is meant for it. -/
def Aligned (nodes : Replication S) (start : Fs S.Name) : Prop :=
  ∀ item, nodes.holders.Closest nodes.receiver item.address.name → Has nodes.disk item →
    Held start item.address → Has start item

theorem sampleNodes_ordered (disk : Fs sampleStorage.Name) : (sampleNodes disk).holders.Ordered where
  nodup := List.nodup_singleton _
  transCmp _ := inferInstanceAs (TransCmp (compare : XorName → XorName → Ordering))
  lawfulEqCmp _ := inferInstanceAs (LawfulEqCmp (compare : XorName → XorName → Ordering))

theorem sampleNodes_orderly {disk : Fs sampleStorage.Name} (filed : DataStorage.Filed disk)
    (only : ∀ addr cmd, Has disk (.cmd addr cmd) → cmd = sampleCreate sampleAddress 1 1) :
    (sampleNodes disk).OrderlyRegisters := by
  have belongs : RegisterStorage.Belongs (sampleOp sampleAddress 1)
      (sampleCreate sampleAddress 1 1) := ⟨rfl, by decide +kernel⟩
  rintro addr - ⟨cmd, has⟩
  have dst := filed addr cmd has
  rw [only addr cmd has] at dst
  refine ⟨sampleOp sampleAddress 1, dst, fun cmd has => ?_, Or.inr ⟨[], Nat.zero_le _, ?_⟩⟩
  · rw [only _ cmd has]
    exact belongs
  · intro edit held
    cases only _ _ held

theorem sampleRound_faultless : (sampleRound sampleOs).Faultless :=
  ⟨sampleOs_reliable, sampleOs_reliable, sampleOs_reliable, sampleOs_reliable⟩

def sampleEditedDisk : Fs sampleStorage.Name :=
  (DataStorage.store sampleOs sampleCreated
    (.registerWrite (.edit (sampleEdit sampleAddress [] [7] 1 1))) 1 1 ⟨0, 0, 0⟩).2.fs

end Replication

end SafeNetwork
