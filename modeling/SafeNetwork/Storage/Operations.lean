import SafeNetwork.Library.Runs
import SafeNetwork.Storage.Layout
import SafeNetwork.Storage.SampleStorage

/-!
# Operations on a storage directory

Restarts, `store` and `remove` in any sequence, with any faults of the operating system. A fault may
leave part of a file behind, but every file is at the path of an item, whatever it holds. On such a
disk `remove` takes a chunk away and nothing else. It never removes a register, which is a directory.
-/

namespace SafeNetwork

open Std Crdt FileSystem

variable {S : StorageScheme} {self : StorageState S} {fs : Fs S.Name} {os : Os S.Name}

/-! ## What faults leave -/

namespace Torn

variable {item : Item S} {path : S.Path} {bytes : List UInt8}

theorem persist (torn : Torn fs) (item : Item S) : Torn (fs.persist os item.path item.bytes).2 := by
  have there : fs.isDirectory item.path.dropLast = true →
      ∀ above, above ≠ [] → above <+: item.dir → fs.get above = some .directory := by
    intro parent above proper below
    exact torn.tree.above parent proper (below.trans (List.prefix_append _ _))
      (Item.path_ne_of_isPrefix below)
  obtain ⟨_, kept⟩ | ⟨parent, -, written | ⟨_, _, part, written⟩⟩ :=
    Fs.persist_cases fs os item.path item.bytes
  · rwa [kept]
  · rw [written]
    exact torn.set (List.prefix_refl _) (there parent)
  · rw [written]
    exact torn.set part (there parent)

theorem get_addressToFilepath_ne (torn : Torn fs) (addr : RegisterAddress) (bytes : List UInt8) :
    fs.get (RegisterStore.addressToFilepath S addr) ≠ some (.file bytes) := by
  intro stands
  obtain ⟨item, same, -⟩ := torn.file _ _ stands
  exact Item.addressToFilepath_ne_path same

end Torn

theorem ChunkStorage.torn_store (torn : Torn self.fs) (chunk : Chunk S) : Torn (store os self chunk).2.fs := by
  have dirs : Torn (self.fs.createDirAll os (chunkAddrToFilepath S chunk.address).dropLast).2 := by
    rw [← Item.path_chunk, Item.dropLast_path]
    exact torn.createDirAll (.chunk chunk)
  simp only [store]
  split
  · exact torn
  split
  · exact torn
  split
  · rename_i made
    rwa [made] at dirs
  · rename_i fs made
    rw [made] at dirs
    have written : Torn (fs.persist os (chunkAddrToFilepath S chunk.address) chunk.value).2 :=
      Torn.persist dirs (.chunk chunk)
    split
    · rename_i failed
      rwa [failed] at written
    · rename_i done
      rwa [done] at written

theorem RegisterStore.torn_writeCmds (addr : RegisterAddress) (lastErr : Option S.Error)
    (level : StorageLevel) (log : List S.Cmd) (torn : Torn self.fs) :
    Torn (writeCmds os (addressToFilepath S addr) lastErr level self log).2.2.fs := by
  induction log generalizing self lastErr level with
  | nil => exact torn
  | cons cmd rest ih =>
    have step : Torn (writeRegisterCmd os self cmd (addressToFilepath S addr)).2.fs := by
      have written : Torn (self.fs.persist os (addressToFilepath S addr ++
          [.cmd (registerOperationId S cmd)]) (S.serialise cmd)).2 := Torn.persist torn (.cmd addr cmd)
      simp only [writeRegisterCmd]
      split
      · exact torn
      split
      · exact torn
      split
      · rename_i failed
        rwa [failed] at written
      · rename_i done
        rwa [done] at written
    rw [writeCmds]
    split
    · rename_i done
      rw [done] at step
      exact ih _ _ step
    · rename_i failed
      rw [failed] at step
      exact ih _ _ step

theorem RegisterStore.torn_writeLogToDisk (addr : RegisterAddress) (log : List S.Cmd) (torn : Torn self.fs) :
    Torn (writeLogToDisk os self log (addressToFilepath S addr)).2.fs := by
  cases log with
  | nil => exact torn
  | cons cmd rest =>
    have dirs : Torn (self.fs.createDirAll os (addressToFilepath S addr)).2 :=
      torn.createDirAll (.cmd addr cmd)
    rw [writeLogToDisk, List.isEmpty_cons, if_neg Bool.false_ne_true]
    split
    · rename_i made
      rwa [made] at dirs
    · rename_i fs made
      rw [made] at dirs
      have written : Torn (writeCmds os (addressToFilepath S addr) none .noChange
          { self with fs := fs } (cmd :: rest)).2.2.fs := torn_writeCmds addr none .noChange _ dirs
      split
      · rename_i failed
        rwa [failed] at written
      · rename_i done
        rwa [done] at written

namespace RegisterStorage

theorem torn_update (torn : Torn self.fs) (data : ReplicatedRegisterLog S) : Torn (update os self data).2.fs := by
  simp only [update, tryLoadStoredRegister_eq]
  split
  · exact torn
  · rename_i loaded
    rw [opLogPath_loadLog loaded]
    exact RegisterStore.torn_writeLogToDisk _ _ torn

theorem torn_write (torn : Torn self.fs) (cmd : S.Cmd) : Torn (write os self cmd).2.fs := by
  simp only [write, tryLoadStoredRegister_eq]
  split
  · exact torn
  · rename_i loaded
    split
    · exact torn
    · rename_i done
      rw [opLogPath_tryToApply done, opLogPath_loadLog loaded]
      exact RegisterStore.torn_writeLogToDisk _ _ torn

end RegisterStorage

namespace DataStorage

theorem torn_store (torn : Torn self.fs) (data : ReplicatedData S) (sectionPk : S.UserKey)
    (nodeKeypair : S.Keypair) (sectionSig : SectionSig S.toKeyScheme) :
    Torn (store os self data sectionPk nodeKeypair sectionSig).2.fs := by
  cases data with
  | chunk chunk => exact ChunkStorage.torn_store torn chunk
  | registerWrite cmd => exact RegisterStorage.torn_write torn cmd
  | registerLog log => exact RegisterStorage.torn_update torn log
  | spentbookWrite cmd => exact RegisterStorage.torn_update torn _
  | spentbookLog log => exact RegisterStorage.torn_update torn log

/-! ## Removal -/

def removalPath (S : StorageScheme) : DataAddress → Option S.Path
  | .safeKey _ => none
  | .bytes addr => some (ChunkStorage.chunkAddrToFilepath S addr)
  | .register addr => some (RegisterStore.addressToFilepath S addr)
  | .spentbook addr => some (RegisterStore.addressToFilepath S addr.registerAddress)

/-- The body that `remove_chunk` and `delete_data` share. -/
def removeAt (os : Os S.Name) (self : StorageState S) (filepath : S.Path) :
    S.Result Unit × StorageState S :=
  match self.fs.metadata os filepath with
  | .error error => (.error (.io error), self)
  | .ok len =>
    match self.fs.removeFile os filepath with
    | (.error error, fs) => (.error (.io error), { self with fs := fs })
    | (.ok (), fs) => (.ok (), ⟨fs, self.usedSpace.decrease len⟩)

theorem remove_eq {address : DataAddress} {path : S.Path}
    (here : removalPath S address = some path) : remove os self address = removeAt os self path := by
  cases address with
  | safeKey name => cases here
  | bytes addr => cases here; rfl
  | register addr => cases here; rfl
  | spentbook addr => cases here; rfl

theorem removeAt_cases (os : Os S.Name) (self : StorageState S) (path : S.Path) :
    (∃ error, removeAt os self path = (.error error, self)) ∨
      ∃ bytes, self.fs.get path = some (.file bytes) ∧ removeAt os self path =
        (.ok (), ⟨self.fs.erase path, self.usedSpace.decrease bytes.length⟩) := by
  unfold removeAt Fs.metadata Fs.removeFile
  cases os.fault (.stat path) with
  | some error => exact Or.inl ⟨_, rfl⟩
  | none =>
    cases stands : self.fs.get path with
    | none => exact Or.inl ⟨_, rfl⟩
    | some node =>
      cases os.fault (.remove path) with
      | some error => cases node <;> exact Or.inl ⟨_, rfl⟩
      | none =>
        cases node with
        | directory => exact Or.inl ⟨_, rfl⟩
        | file bytes => exact Or.inr ⟨bytes, rfl, rfl⟩

theorem removeAt_ok (reliable : os.Reliable) {path : S.Path} {bytes : List UInt8}
    (stands : self.fs.get path = some (.file bytes)) : removeAt os self path =
      (.ok (), ⟨self.fs.erase path, self.usedSpace.decrease bytes.length⟩) := by
  simp only [removeAt, Fs.metadata, reliable (.stat path), stands, Fs.removeFile_ok reliable stands]

theorem torn_remove (torn : Torn self.fs) (address : DataAddress) : Torn (remove os self address).2.fs := by
  cases here : removalPath S address with
  | none =>
    cases address with
    | safeKey name => exact torn
    | bytes addr => cases here
    | register addr => cases here
    | spentbook addr => cases here
  | some path =>
    rw [remove_eq here]
    obtain ⟨_, failed⟩ | ⟨bytes, stands, done⟩ := removeAt_cases os self path
    · rwa [failed]
    · rw [done]
      exact torn.erase stands

/-! ## Operations -/

/-- An operation on a storage directory, with the operating system during it. -/
inductive Operation (S : StorageScheme) where
  /-- `DataStorage::new` with a new counter of used space. -/
  | restart (minCapacity maxCapacity : Nat)
  | store (os : Os S.Name) (data : ReplicatedData S) (sectionPk : S.UserKey)
    (nodeKeypair : S.Keypair) (sectionSig : SectionSig S.toKeyScheme)
  | remove (os : Os S.Name) (address : DataAddress)

def Operation.apply (self : StorageState S) : Operation S → StorageState S
  | .restart minCapacity maxCapacity => new self.fs (.new minCapacity maxCapacity)
  | .store os data sectionPk nodeKeypair sectionSig =>
    (DataStorage.store os self data sectionPk nodeKeypair sectionSig).2
  | .remove os address => (DataStorage.remove os self address).2

/-- The storage after operations, one after the other. -/
abbrev operate (self : StorageState S) (operations : List (Operation S)) : StorageState S :=
  Runs.run Operation.apply self operations

/-- Whatever fails in operations on an empty directory, every file holds a leading part of an item at
the path of the item. -/
theorem torn_operate (usedSpace : UsedSpace) (operations : List (Operation S)) :
    Torn (operate (new .empty usedSpace) operations).fs := by
  refine Runs.run_induction (motive := fun self : StorageState S => Torn self.fs) placed_empty ?_
  intro self torn operation _
  cases operation with
  | restart minCapacity maxCapacity => exact torn
  | store os data sectionPk nodeKeypair sectionSig => exact torn_store torn ..
  | remove os address => exact torn_remove torn address

/-! ## Removal undoes storing -/

def Finds (os : Os S.Name) (fs : Fs S.Name) (address : DataAddress) : Prop :=
  address ∈ dataAddrs os fs ∨ ∃ data, getFromLocalStore os fs address = .ok data

structure Undoes (os : Os S.Name) (storage : StorageState S) (address : DataAddress) : Prop where
  ok : (remove os storage address).1 = .ok ()
  gone : ∀ (os' : Os S.Name) data,
    getFromLocalStore os' (remove os storage address).2.fs address ≠ .ok data
  unlisted : ∀ os' : Os S.Name, address ∉ dataAddrs os' (remove os storage address).2.fs
  others : ∀ (os' : Os S.Name) other, other ≠ address →
    getFromLocalStore os' (remove os storage address).2.fs other =
      getFromLocalStore os' storage.fs other ∧
    (other ∈ dataAddrs os' (remove os storage address).2.fs ↔ other ∈ dataAddrs os' storage.fs)

section Erase

variable {path dir : S.Path} {addr other : ChunkAddress} {reg : RegisterAddress}

theorem mem_listFilesIn : path ∈ listFilesIn os fs dir ↔
    fs.pathExists os dir = true ∧ path ∈ fs.files dir ∧ os.fault (.walk path) = none := by
  unfold listFilesIn
  cases fs.pathExists os dir with
  | false => simp
  | true => simp [Fs.walk, (os.order_perm _).mem_iff]

theorem chunkAddrToFilepath_injective : Function.Injective (ChunkStorage.chunkAddrToFilepath S) := by
  rintro ⟨left⟩ ⟨right⟩ same
  have last : left = right := by
    simpa [ChunkStorage.chunkAddrToFilepath] using congrArg List.getLast? same
  rw [last]

theorem eq_path_of_chunk (torn : Torn fs) (listed : path ∈ fs.files dir)
    (named : ChunkStorage.chunkFilepathToAddress path = some addr) :
    path = ChunkStorage.chunkAddrToFilepath S addr := by
  obtain ⟨-, bytes, stands⟩ := Fs.mem_files.mp listed
  obtain ⟨item, rfl, -⟩ := torn.file path bytes stands
  cases item with
  | cmd reg cmd => simp [ChunkStorage.chunkFilepathToAddress, Item.path, Item.fileName] at named
  | chunk chunk =>
    obtain rfl : chunk.address = addr := by
      simpa [ChunkStorage.chunkFilepathToAddress, Item.path, Item.fileName] using named
    rfl

theorem chunkFilepathToAddress_path :
    ChunkStorage.chunkFilepathToAddress (ChunkStorage.chunkAddrToFilepath S addr) = some addr := by
  simp [ChunkStorage.chunkFilepathToAddress, ChunkStorage.chunkAddrToFilepath]

theorem get_of_finds (torn : Torn fs) (found : Finds os fs (.bytes addr)) :
    ∃ bytes, fs.get (ChunkStorage.chunkAddrToFilepath S addr) = some (.file bytes) := by
  obtain listed | ⟨data, got⟩ := found
  · have inside : addr ∈ ChunkStorage.addrs os fs := by simpa [dataAddrs] using listed
    obtain ⟨path, mem, named⟩ := List.mem_filterMap.mp inside
    obtain ⟨-, listed, -⟩ := mem_listFilesIn.mp mem
    obtain ⟨-, bytes, stands⟩ := Fs.mem_files.mp listed
    rw [eq_path_of_chunk torn listed named] at stands
    exact ⟨bytes, stands⟩
  · simp only [getFromLocalStore, ChunkStorage.getChunk] at got
    split at got
    · rename_i bytes read
      exact ⟨bytes, Fs.get_of_read read⟩
    · cases got
    · cases got

theorem read_erase_of_not_isPrefix (apart : ¬ dir <+: path) {file : S.Path} (below : dir <+: file) :
    (fs.erase path).read os file = fs.read os file := by
  have differs : file ≠ path := by
    rintro rfl
    exact apart below
  rw [Fs.read, Fs.read, Fs.get_erase, if_neg differs]

theorem listFilesIn_erase (apart : ¬ dir <+: path) : listFilesIn os (fs.erase path) dir = listFilesIn os fs dir := by
  have differs : dir ≠ path := by
    rintro rfl
    exact apart (List.prefix_refl _)
  have seen : (fs.erase path).pathExists os dir = fs.pathExists os dir := by
    rw [Fs.pathExists, Fs.pathExists, Fs.get_erase, if_neg differs]
  simp only [listFilesIn, seen, Fs.walk, Fs.files_erase_of_not_isPrefix apart]

theorem not_isPrefix_chunk : ¬ [Component.register] <+: ChunkStorage.chunkAddrToFilepath S addr := by
  simp [ChunkStorage.chunkAddrToFilepath, prefixTreePath]

theorem tryLoadStoredRegister_erase : RegisterStorage.tryLoadStoredRegister os
        (fs.erase (ChunkStorage.chunkAddrToFilepath S addr)) reg =
      RegisterStorage.tryLoadStoredRegister os fs reg := by
  have root : [.register] <+: RegisterStore.addressToFilepath S reg := by
    simp [RegisterStore.addressToFilepath, prefixTreePath]
  have apart : ¬ RegisterStore.addressToFilepath S reg <+: ChunkStorage.chunkAddrToFilepath S addr :=
    fun below => not_isPrefix_chunk (root.trans below)
  have same : RegisterStorage.storedLog os (fs.erase (ChunkStorage.chunkAddrToFilepath S addr)) reg =
      RegisterStorage.storedLog os fs reg := by
    rw [RegisterStorage.storedLog, RegisterStorage.storedLog, listFilesIn_erase apart]
    apply List.filterMap_congr
    intro file mem
    obtain ⟨-, listed, -⟩ := mem_listFilesIn.mp mem
    rw [RegisterStore.readCmd, RegisterStore.readCmd,
      read_erase_of_not_isPrefix apart (Fs.mem_files.mp listed).1]
  rw [RegisterStorage.tryLoadStoredRegister_eq, RegisterStorage.tryLoadStoredRegister_eq, same]

theorem listAllRegAddrs_erase :
    RegisterStore.listAllRegAddrs os (fs.erase (ChunkStorage.chunkAddrToFilepath S addr)) =
      RegisterStore.listAllRegAddrs os fs := by
  rw [RegisterStore.listAllRegAddrs, RegisterStore.listAllRegAddrs,
    listFilesIn_erase not_isPrefix_chunk]
  refine congrArg _ (List.foldl_ext _ _ _ fun found file mem => ?_)
  obtain ⟨-, listed, -⟩ := mem_listFilesIn.mp mem
  rw [RegisterStore.listRegAddr, RegisterStore.listRegAddr,
    read_erase_of_not_isPrefix not_isPrefix_chunk (Fs.mem_files.mp listed).1]

theorem mem_addrs_erase (torn : Torn fs) :
    other ∈ ChunkStorage.addrs os (fs.erase (ChunkStorage.chunkAddrToFilepath S addr)) ↔
      other ∈ ChunkStorage.addrs os fs ∧ other ≠ addr := by
  have root : [Component.chunks] ≠ ChunkStorage.chunkAddrToFilepath S addr := by
    intro same
    simpa [ChunkStorage.chunkAddrToFilepath] using congrArg List.getLast? same
  have seen : (fs.erase (ChunkStorage.chunkAddrToFilepath S addr)).pathExists os [.chunks] =
      fs.pathExists os [.chunks] := by
    rw [Fs.pathExists, Fs.pathExists, Fs.get_erase, if_neg root]
  simp only [ChunkStorage.addrs, List.mem_filterMap, mem_listFilesIn, seen]
  constructor
  · rintro ⟨path, ⟨stands, listed, visited⟩, named⟩
    obtain ⟨below, bytes, file⟩ := Fs.mem_files.mp listed
    rw [Fs.get_erase] at file
    split at file
    · cases file
    · rename_i differs
      have kept : path ∈ fs.files [.chunks] := Fs.mem_files.mpr ⟨below, bytes, file⟩
      refine ⟨⟨path, ⟨stands, kept, visited⟩, named⟩, ?_⟩
      rintro rfl
      exact differs (eq_path_of_chunk torn kept named)
  · rintro ⟨⟨path, ⟨stands, listed, visited⟩, named⟩, differs⟩
    obtain ⟨below, bytes, file⟩ := Fs.mem_files.mp listed
    refine ⟨path, ⟨stands, Fs.mem_files.mpr ⟨below, bytes, ?_⟩, visited⟩, named⟩
    rw [Fs.get_erase, if_neg, file]
    rintro rfl
    rw [chunkFilepathToAddress_path] at named
    exact differs (Option.some.inj named).symm

end Erase

theorem undoes_chunk (torn : Torn self.fs) (reliable : os.Reliable) {addr : ChunkAddress}
    {os₀ : Os S.Name} (found : Finds os₀ self.fs (.bytes addr)) : Undoes os self (.bytes addr) := by
  obtain ⟨bytes, stands⟩ := get_of_finds torn found
  have done : remove os self (.bytes addr) = (.ok (),
      ⟨self.fs.erase (ChunkStorage.chunkAddrToFilepath S addr), _⟩) :=
    (remove_eq rfl).trans (removeAt_ok reliable stands)
  have absent : (self.fs.erase (ChunkStorage.chunkAddrToFilepath S addr)).get
      (ChunkStorage.chunkAddrToFilepath S addr) = none := by
    rw [Fs.get_erase, if_pos rfl]
  refine ⟨by rw [done], fun os' data got => ?_, fun os' listed => ?_, fun os' other differs => ?_⟩
  · rw [done] at got
    obtain ⟨_, file⟩ := get_of_finds (torn.erase stands) (Or.inr ⟨data, got⟩)
    rw [absent] at file
    cases file
  · rw [done] at listed
    obtain ⟨_, file⟩ := get_of_finds (torn.erase stands) (Or.inl listed)
    rw [absent] at file
    cases file
  · rw [done]
    cases other with
    | safeKey name => exact ⟨rfl, by simp [dataAddrs]⟩
    | bytes other =>
      have apart : other ≠ addr := fun same => differs (congrArg _ same)
      have away : ChunkStorage.chunkAddrToFilepath S other ≠ ChunkStorage.chunkAddrToFilepath S addr :=
        chunkAddrToFilepath_injective.ne apart
      constructor
      · simp only [getFromLocalStore, ChunkStorage.getChunk, Fs.read, Fs.get_erase, if_neg away]
      · simp [dataAddrs, mem_addrs_erase torn, apart]
    | register reg =>
      constructor
      · simp only [getFromLocalStore, RegisterStorage.getRegisterReplica, tryLoadStoredRegister_erase]
      · simp [dataAddrs, listAllRegAddrs_erase]
    | spentbook book =>
      constructor
      · simp only [getFromLocalStore, RegisterStorage.getRegisterReplica, tryLoadStoredRegister_erase]
      · simp [dataAddrs]

/-- After any operations, with any faults in them, an address that is found is removed if and only if
it is the address of a chunk. -/
theorem remove_undoes_iff (usedSpace : UsedSpace) (operations : List (Operation S))
    (os₀ os : Os S.Name) (reliable : os.Reliable) (address : DataAddress)
    (found : Finds os₀ (operate (new .empty usedSpace) operations).fs address) :
    Undoes os (operate (new .empty usedSpace) operations) address ↔
      ∃ addr, address = .bytes addr := by
  have torn : Torn (operate (new .empty usedSpace) operations).fs := torn_operate usedSpace operations
  constructor
  · intro undoes
    have directory : ∀ addr, removalPath S address = some (RegisterStore.addressToFilepath S addr) →
        ∃ addr, address = .bytes addr := by
      intro addr here
      have ok := undoes.ok
      rw [remove_eq here] at ok
      obtain ⟨_, failed⟩ | ⟨bytes, stands, -⟩ := removeAt_cases os
        (operate (new .empty usedSpace) operations) (RegisterStore.addressToFilepath S addr)
      · rw [failed] at ok
        cases ok
      · exact absurd stands (Torn.get_addressToFilepath_ne torn addr bytes)
    cases address with
    | safeKey name => cases undoes.ok
    | bytes addr => exact ⟨addr, rfl⟩
    | register addr => exact directory addr rfl
    | spentbook book => exact directory book.registerAddress rfl
  · rintro ⟨addr, rfl⟩
    exact undoes_chunk torn reliable found

theorem remove_undoes_iff_chunk : Undoes sampleOs (operate (new .empty (.new 1000 1000))
      [.store sampleOs (.chunk (.new [7])) 1 1 ⟨0, 0, 0⟩]) (.bytes (Chunk.new (S := sampleStorage) [7]).address) := by
  have listed : DataAddress.bytes (Chunk.new (S := sampleStorage) [7]).address ∈
      dataAddrs sampleOs (operate (S := sampleStorage) (new .empty (.new 1000 1000))
        [.store sampleOs (.chunk (.new [7])) 1 1 ⟨0, 0, 0⟩]).fs := by
    decide +kernel
  exact (remove_undoes_iff (.new 1000 1000) _ sampleOs sampleOs sampleOs_reliable _
    (Or.inl listed)).mpr ⟨_, rfl⟩

/-- A register is listed, and it cannot be removed. -/
theorem remove_register_fails : (DataAddress.register sampleAddress ∈ dataAddrs sampleOs
      (operate (S := sampleStorage) (new .empty (.new 1000 1000))
        [.store sampleOs (.registerWrite (sampleCreate sampleAddress 1 1)) 1 1 ⟨0, 0, 0⟩]).fs) ∧
    (remove sampleOs (operate (S := sampleStorage) (new .empty (.new 1000 1000))
      [.store sampleOs (.registerWrite (sampleCreate sampleAddress 1 1)) 1 1 ⟨0, 0, 0⟩])
      (.register sampleAddress)).1.toOption = none := by
  decide +kernel

end DataStorage

end SafeNetwork
