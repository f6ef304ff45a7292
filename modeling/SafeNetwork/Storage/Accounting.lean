import SafeNetwork.Storage.Operations

/-!
# The counter of used space

A chunk is counted with its length, a register command with the size of the command in memory, and
what `remove` subtracts is the length of the file. The counter is the sum over all files as long as
the storage starts on a directory without files and nothing that is stored fails halfway.
-/

namespace SafeNetwork

open Std Crdt FileSystem

variable {S : StorageScheme} {self : StorageState S} {fs fs' : Fs S.Name} {os : Os S.Name}
  {path : S.Path} {bytes : List UInt8}

/-! ## The sum over all files -/

def amountOf (path : S.Path) (bytes : List UInt8) : Nat :=
  match path.getLast? with
  | some (.chunk _) => bytes.length
  | some (.cmd _) => S.sizeOfRegisterCmd
  | _ => 0

def amountAt (fs : Fs S.Name) (path : S.Path) : Nat :=
  match fs.get path with
  | some (.file bytes) => amountOf path bytes
  | _ => 0

def totalAmount (fs : Fs S.Name) : Nat := ((fs.files []).map (amountAt fs)).sum

theorem amountOf_item (item : Item S) : amountOf item.path item.bytes = item.amount := by
  cases item <;> simp [amountOf, Item.path, Item.fileName, Item.bytes, Item.amount]

theorem amountAt_file (stands : fs.get path = some (.file bytes)) : amountAt fs path = amountOf path bytes := by
  rw [amountAt, stands]

theorem totalAmount_congr
    (same : ∀ path bytes, fs'.get path = some (.file bytes) ↔ fs.get path = some (.file bytes)) :
    totalAmount fs' = totalAmount fs := by
  have amounts : (fs'.files []).map (amountAt fs') = (fs'.files []).map (amountAt fs) := by
    apply List.map_congr_left
    intro path mem
    obtain ⟨-, bytes, stands⟩ := Fs.mem_files.mp mem
    rw [amountAt_file stands, amountAt_file ((same path bytes).mp stands)]
  rw [totalAmount, amounts]
  exact ((Fs.files_perm same).map _).sum_eq

theorem totalAmount_set (absent : fs.get path = none) :
    totalAmount (fs.set path (.file bytes)) = amountOf path bytes + totalAmount fs := by
  have amounts : (fs.files []).map (amountAt (fs.set path (.file bytes))) =
      (fs.files []).map (amountAt fs) := by
    apply List.map_congr_left
    intro other mem
    obtain ⟨-, content, stands⟩ := Fs.mem_files.mp mem
    have differs : other ≠ path := by
      rintro rfl
      rw [absent] at stands
      cases stands
    rw [amountAt, amountAt, Fs.get_set_ne differs]
  rw [totalAmount, ((Fs.files_set absent List.nil_prefix).map _).sum_eq, List.map_cons, List.sum_cons,
    amounts, amountAt_file Fs.get_set_self, totalAmount]

theorem totalAmount_erase (stands : fs.get path = some (.file bytes)) :
    totalAmount fs = amountOf path bytes + totalAmount (fs.erase path) := by
  have amounts : ((fs.erase path).files []).map (amountAt fs) =
      ((fs.erase path).files []).map (amountAt (fs.erase path)) := by
    apply List.map_congr_left
    intro other mem
    obtain ⟨-, content, kept⟩ := Fs.mem_files.mp mem
    rw [amountAt, amountAt]
    rw [Fs.get_erase] at kept ⊢
    split at kept
    · cases kept
    · rename_i differs
      rw [if_neg differs]
  rw [totalAmount, ((Fs.files_erase stands List.nil_prefix).map _).sum_eq, List.map_cons,
    List.sum_cons, amounts, amountAt_file stands, totalAmount]

/-! ## Balance -/

theorem UsedSpace.decrease_eq_sub {usedSpace : UsedSpace} {size : Nat} (held : size ≤ usedSpace.usedSpace)
    (small : usedSpace.usedSpace < usizeModulus) :
    (usedSpace.decrease size).usedSpace = usedSpace.usedSpace - size := by
  have short : size % usizeModulus = size := Nat.mod_eq_of_lt (held.trans_lt small)
  have sum : usedSpace.usedSpace + usizeModulus - size = usedSpace.usedSpace - size + usizeModulus := by
    omega
  have rest : usedSpace.usedSpace - size < usizeModulus := (Nat.sub_le _ _).trans_lt small
  show (usedSpace.usedSpace + usizeModulus - size % usizeModulus) % usizeModulus = _
  rw [short, sum, Nat.add_mod_right, Nat.mod_eq_of_lt rest]

/-- The counter is the sum over all files, all of which are where items belong, and within the
capacity. -/
structure Balanced (storage : StorageState S) : Prop where
  file : ∀ path bytes, storage.fs.get path = some (.file bytes) → ∃ item : Item S, path = item.path
  total : storage.usedSpace.usedSpace = totalAmount storage.fs
  fits : storage.usedSpace.usedSpace ≤ storage.usedSpace.maxCapacity
  small : storage.usedSpace.usedSpace < usizeModulus

structure Balances (before : StorageState S) (storage : StorageState S) : Prop where
  balanced : Balanced storage
  capacity : storage.usedSpace.maxCapacity = before.usedSpace.maxCapacity

namespace Balanced

theorem restart (nothing : fs.files [] = []) (minCapacity maxCapacity : Nat) :
    Balanced (DataStorage.new fs (.new minCapacity maxCapacity)) where
  file path bytes stands := by
    have listed : path ∈ fs.files [] := Fs.mem_files.mpr ⟨List.nil_prefix, bytes, stands⟩
    rw [nothing] at listed
    cases listed
  total := by
    show 0 = totalAmount fs
    rw [totalAmount, nothing]
    rfl
  fits := Nat.zero_le _
  small := Nat.two_pow_pos 64

theorem createDirAll (balanced : Balanced self) (os : Os S.Name) (dir : S.Path) :
    Balances self { self with fs := (self.fs.createDirAll os dir).2 } where
  balanced := {
    file := fun path bytes stands => balanced.file path bytes (Fs.get_file_createDirAll.mp stands)
    total := balanced.total.trans (totalAmount_congr fun _ _ => Fs.get_file_createDirAll).symm
    fits := balanced.fits
    small := balanced.small }
  capacity := rfl

theorem add (balanced : Balanced self) (item : Item S) (absent : self.fs.get item.path = none)
    (space : self.usedSpace.canAdd item.amount = true)
    (noWrap : self.usedSpace.maxCapacity + item.amount < usizeModulus) : Balances self
      ⟨self.fs.set item.path (.file item.bytes), (self.usedSpace.increase S item.amount).2⟩ := by
  obtain ⟨file, total, fits, -⟩ := balanced
  have exact_sum : (self.usedSpace.usedSpace + item.amount) % usizeModulus =
      self.usedSpace.usedSpace + item.amount := Nat.mod_eq_of_lt (by omega)
  rw [UsedSpace.canAdd, exact_sum, decide_eq_true_eq] at space
  refine ⟨⟨fun path bytes stands => ?_, ?_, ?_, ?_⟩, UsedSpace.increase_maxCapacity ..⟩
  · by_cases same : path = item.path
    · exact ⟨item, same⟩
    · rw [Fs.get_set_ne same] at stands
      exact file path bytes stands
  · rw [UsedSpace.increase_usedSpace, exact_sum, totalAmount_set absent, amountOf_item, total,
      Nat.add_comm]
  · rw [UsedSpace.increase_usedSpace, UsedSpace.increase_maxCapacity, exact_sum]
    exact space
  · rw [UsedSpace.increase_usedSpace, exact_sum]
    omega

theorem erase (balanced : Balanced self) {addr : ChunkAddress}
    (stands : self.fs.get (ChunkStorage.chunkAddrToFilepath S addr) = some (.file bytes)) :
    bytes.length ≤ self.usedSpace.usedSpace ∧
      Balanced ⟨self.fs.erase (ChunkStorage.chunkAddrToFilepath S addr), self.usedSpace.decrease bytes.length⟩ := by
  obtain ⟨file, total, fits, small⟩ := balanced
  have amount : amountOf (ChunkStorage.chunkAddrToFilepath S addr) bytes = bytes.length := by
    simp [amountOf, ChunkStorage.chunkAddrToFilepath]
  have left := totalAmount_erase stands
  rw [amount] at left
  have held : bytes.length ≤ self.usedSpace.usedSpace := by omega
  have counter := UsedSpace.decrease_eq_sub held small
  refine ⟨held, fun path content kept => ?_, ?_, ?_, ?_⟩
  · rw [Fs.get_erase] at kept
    split at kept
    · cases kept
    · exact file path content kept
  · rw [counter, total, left, Nat.add_sub_cancel_left]
  · rw [counter, UsedSpace.decrease_maxCapacity]
    omega
  · rw [counter]
    omega

end Balanced

/-! ## Storing and removing -/

theorem Balances.refl (balanced : Balanced self) : Balances self self := ⟨balanced, rfl⟩

theorem Balances.trans {middle after : StorageState S} (first : Balances self middle)
    (second : Balances middle after) : Balances self after :=
  ⟨second.balanced, second.capacity.trans first.capacity⟩

theorem ChunkStorage.store_balances (balanced : Balanced self) (reliable : os.Reliable) (chunk : Chunk S)
    (noWrap : self.usedSpace.maxCapacity + chunk.value.length < usizeModulus) :
    Balances self (store os self chunk).2 := by
  have dirs := balanced.createDirAll os (chunkAddrToFilepath S chunk.address).dropLast
  simp only [store]
  split
  · exact .refl balanced
  rename_i unseen
  split
  · exact .refl balanced
  rename_i space
  rw [Fs.pathExists_eq reliable, Option.not_isSome_iff_eq_none] at unseen
  rw [Bool.not_eq_true, Bool.not_eq_false'] at space
  split
  · rename_i made
    rwa [made] at dirs
  · rename_i fs made
    have absent : fs.get (Item.chunk chunk).path = none := by
      obtain kept | ⟨above, -, -⟩ := Fs.get_createDirAll os self.fs (Item.chunk chunk).dir
        (Item.chunk chunk).path
      · rw [← Item.dropLast_path, Item.path_chunk, made] at kept
        exact kept.trans unseen
      · exact absurd rfl (Item.path_ne_of_isPrefix above)
    rw [made] at dirs
    have added := dirs.balanced.add (.chunk chunk) absent space noWrap
    obtain ⟨error, failed⟩ | done :=
      Fs.persist_reliable fs reliable (chunkAddrToFilepath S chunk.address) chunk.value
    · rw [failed]
      exact dirs
    · rw [done]
      exact dirs.trans added

namespace RegisterStore

variable {addr : RegisterAddress} {cmd : S.Cmd} {log : List S.Cmd}

theorem writeRegisterCmd_balances (addr : RegisterAddress) (cmd : S.Cmd) (balanced : Balanced self)
    (reliable : os.Reliable) (noWrap : self.usedSpace.maxCapacity + S.sizeOfRegisterCmd < usizeModulus) :
    Balances self (writeRegisterCmd os self cmd (addressToFilepath S addr)).2 := by
  simp only [writeRegisterCmd]
  split
  · exact .refl balanced
  rename_i space
  split
  · exact .refl balanced
  rename_i unseen
  rw [Fs.pathExists_eq reliable, Option.not_isSome_iff_eq_none] at unseen
  rw [Bool.not_eq_true, Bool.not_eq_false'] at space
  have added := balanced.add (.cmd addr cmd) unseen space noWrap
  obtain ⟨error, failed⟩ | done := Fs.persist_reliable self.fs reliable
    (addressToFilepath S addr ++ [.cmd (registerOperationId S cmd)]) (S.serialise cmd)
  · rw [failed]
    exact .refl balanced
  · rw [done]
    exact added

theorem writeCmds_balances (addr : RegisterAddress) (log : List S.Cmd) (balanced : Balanced self)
    (reliable : os.Reliable) (noWrap : self.usedSpace.maxCapacity + S.sizeOfRegisterCmd < usizeModulus)
    (lastErr : Option S.Error) (level : StorageLevel) :
    Balances self (writeCmds os (addressToFilepath S addr) lastErr level self log).2.2 := by
  induction log generalizing self lastErr level with
  | nil => exact .refl balanced
  | cons cmd rest ih =>
    have step := writeRegisterCmd_balances addr cmd balanced reliable noWrap
    rw [writeCmds]
    split
    · rename_i done
      rw [done] at step
      exact step.trans (ih step.balanced (step.capacity ▸ noWrap) _ _)
    · rename_i failed
      rw [failed] at step
      exact step.trans (ih step.balanced (step.capacity ▸ noWrap) _ _)

theorem writeLogToDisk_balances (balanced : Balanced self) (reliable : os.Reliable)
    (noWrap : self.usedSpace.maxCapacity + S.sizeOfRegisterCmd < usizeModulus) :
    Balances self (writeLogToDisk os self log (addressToFilepath S addr)).2 := by
  have dirs := balanced.createDirAll os (addressToFilepath S addr)
  simp only [writeLogToDisk]
  split
  · exact .refl balanced
  split
  · rename_i made
    rwa [made] at dirs
  · rename_i fs made
    rw [made] at dirs
    have written := writeCmds_balances addr log dirs.balanced reliable noWrap none .noChange
    split
    · rename_i failed
      rw [failed] at written
      exact dirs.trans written
    · rename_i done
      rw [done] at written
      exact dirs.trans written

end RegisterStore

namespace DataStorage

def amount : ReplicatedData S → Nat
  | .chunk chunk => chunk.value.length
  | .registerWrite _ => S.sizeOfRegisterCmd
  | .registerLog _ => S.sizeOfRegisterCmd
  | .spentbookWrite _ => S.sizeOfRegisterCmd
  | .spentbookLog _ => S.sizeOfRegisterCmd

section

variable (balanced : Balanced self) (reliable : os.Reliable)
  (noWrap : self.usedSpace.maxCapacity + S.sizeOfRegisterCmd < usizeModulus)
include balanced reliable noWrap

theorem update_balances
    (data : ReplicatedRegisterLog S) : Balances self (RegisterStorage.update os self data).2 := by
  simp only [RegisterStorage.update, RegisterStorage.tryLoadStoredRegister_eq]
  split
  · exact .refl balanced
  · rename_i loaded
    rw [RegisterStorage.opLogPath_loadLog loaded]
    exact RegisterStore.writeLogToDisk_balances balanced reliable noWrap

theorem write_balances (cmd : S.Cmd) :
    Balances self (RegisterStorage.write os self cmd).2 := by
  simp only [RegisterStorage.write, RegisterStorage.tryLoadStoredRegister_eq]
  split
  · exact .refl balanced
  · rename_i loaded
    split
    · exact .refl balanced
    · rename_i done
      rw [RegisterStorage.opLogPath_tryToApply done, RegisterStorage.opLogPath_loadLog loaded]
      exact RegisterStore.writeLogToDisk_balances balanced reliable noWrap

end

theorem store_balances (balanced : Balanced self) (reliable : os.Reliable) (data : ReplicatedData S)
    (noWrap : self.usedSpace.maxCapacity + amount data < usizeModulus) (sectionPk : S.UserKey)
    (nodeKeypair : S.Keypair) (sectionSig : SectionSig S.toKeyScheme) :
    Balances self (store os self data sectionPk nodeKeypair sectionSig).2 := by
  cases data with
  | chunk chunk => exact ChunkStorage.store_balances balanced reliable chunk noWrap
  | registerWrite cmd => exact write_balances balanced reliable noWrap cmd
  | registerLog log => exact update_balances balanced reliable noWrap log
  | spentbookWrite cmd => exact update_balances balanced reliable noWrap _
  | spentbookLog log => exact update_balances balanced reliable noWrap log

theorem removable (balanced : Balanced self) {address : DataAddress}
    (here : removalPath S address = some path) (stands : self.fs.get path = some (.file bytes)) :
    bytes.length ≤ self.usedSpace.usedSpace ∧
      Balanced ⟨self.fs.erase path, self.usedSpace.decrease bytes.length⟩ := by
  have directory : ∀ addr, path ≠ RegisterStore.addressToFilepath S addr := by
    rintro addr rfl
    obtain ⟨item, same⟩ := balanced.file _ _ stands
    exact Item.addressToFilepath_ne_path same
  cases address with
  | safeKey name => cases here
  | bytes addr => cases here; exact balanced.erase stands
  | register addr => cases here; exact absurd rfl (directory addr)
  | spentbook book => cases here; exact absurd rfl (directory book.registerAddress)

theorem remove_balanced (balanced : Balanced self) (address : DataAddress) : Balanced (remove os self address).2 := by
  cases here : removalPath S address with
  | none =>
    cases address with
    | safeKey name => exact balanced
    | bytes addr => cases here
    | register addr => cases here
    | spentbook book => cases here
  | some path =>
    rw [remove_eq here]
    obtain ⟨_, failed⟩ | ⟨bytes, stands, done⟩ := removeAt_cases os self path
    · rwa [failed]
    · rw [done]
      exact (removable balanced here stands).2

/-- An operation that can be counted: a restart without files, or storing without faults, of an amount
that can be added to the capacity. -/
def Countable (self : StorageState S) : Operation S → Prop
  | .restart _ _ => self.fs.files [] = []
  | .store os data _ _ _ =>
    os.Reliable ∧ self.usedSpace.maxCapacity + amount data < usizeModulus
  | .remove _ _ => True

/-- The counter is right, and neither its decrease nor the check before its increase wraps around. -/
structure Accounted (storage : StorageState S) : Prop where
  total : storage.usedSpace.usedSpace = totalAmount storage.fs
  decrease : ∀ address path bytes, removalPath S address = some path →
    storage.fs.get path = some (.file bytes) → bytes.length ≤ storage.usedSpace.usedSpace
  canAddChunk : ∀ chunk : Chunk S,
    storage.usedSpace.maxCapacity + chunk.value.length < usizeModulus →
      storage.usedSpace.usedSpace + chunk.value.length < usizeModulus
  /-- Nor does the check for a command, after any commands written before it. -/
  canAddCmd : ∀ (os : Os S.Name) (log : List S.Cmd) addr, os.Reliable →
    storage.usedSpace.maxCapacity + S.sizeOfRegisterCmd < usizeModulus →
      (RegisterStore.writeLogToDisk os storage log
        (RegisterStore.addressToFilepath S addr)).2.usedSpace.usedSpace + S.sizeOfRegisterCmd <
          usizeModulus

theorem accounted_of_balanced (balanced : Balanced self) : Accounted self where
  total := balanced.total
  decrease address path bytes here stands := (removable balanced here stands).1
  canAddChunk chunk noWrap := (Nat.add_le_add_right balanced.fits _).trans_lt noWrap
  canAddCmd os log addr reliable noWrap := by
    have written : Balances self (RegisterStore.writeLogToDisk os self log
        (RegisterStore.addressToFilepath S addr)).2 :=
      RegisterStore.writeLogToDisk_balances balanced reliable noWrap
    have fits := written.balanced.fits
    rw [written.capacity] at fits
    exact (Nat.add_le_add_right fits _).trans_lt noWrap

/-- In every run on a directory without files whose operations can all be counted, the counter is the
sum of the amounts of the files, and no subtraction or addition of it wraps around. -/
theorem counter_eq_total (fs : Fs S.Name) (nothing : fs.files [] = []) (minCapacity maxCapacity : Nat)
    (operations : List (Operation S)) (countable : Runs.Throughout Operation.apply Countable
      (new fs (.new minCapacity maxCapacity)) operations) :
    Accounted (operate (new fs (.new minCapacity maxCapacity)) operations) := by
  refine accounted_of_balanced (countable.induction (Balanced.restart nothing _ _) ?_)
  intro self operation balanced condition
  cases operation with
  | restart minCapacity maxCapacity => exact Balanced.restart condition _ _
  | store os data sectionPk nodeKeypair sectionSig =>
    exact (store_balances balanced condition.1 data condition.2 _ _ _).balanced
  | remove os address => exact remove_balanced balanced address

def sampleStoreChunk : Operation sampleStorage :=
  .store sampleOs (.chunk (.new [7])) 1 1 ⟨0, 0, 0⟩

def sampleRemoveChunk : Operation sampleStorage :=
  .remove sampleOs (.bytes (Chunk.new (S := sampleStorage) [7]).address)

theorem counter_eq_total_removed : Accounted (operate (new .empty (.new 1000 1000))
      [sampleStoreChunk, sampleRemoveChunk, .restart 1000 1000]) := by
  refine counter_eq_total .empty rfl 1000 1000 _ ⟨⟨sampleOs_reliable, ?_⟩, trivial, ?_, trivial⟩
  · decide +kernel
  · show (Operation.apply (Operation.apply (new .empty (.new 1000 1000)) sampleStoreChunk)
      sampleRemoveChunk).fs.files [] = []
    decide +kernel

/-- After a restart a chunk on the disk is not counted, and when it is removed, the counter wraps
around. -/
theorem counter_wraps : (operate (new .empty (.new 1000 1000))
      [sampleStoreChunk, .restart 1000 1000]).usedSpace.usedSpace = 0 ∧
    totalAmount (operate (new .empty (.new 1000 1000)) [sampleStoreChunk, .restart 1000 1000]).fs = 1 ∧
    (operate (new .empty (.new 1000 1000))
      [sampleStoreChunk, .restart 1000 1000, sampleRemoveChunk]).usedSpace.usedSpace = usizeModulus - 1 := by
  decide +kernel

end DataStorage

end SafeNetwork
