import SafeNetwork.Library.FileSystem
import SafeNetwork.Types.Register

/-!
# Storage of a node

What the modules of `sn_node/src/storage` share: the crates they use, the layout of the storage
directory, their errors and the counter of used space. The state of a storage is the disk and the
counter. Every operation gets the answers of the operating system during the call (`Os`).
-/

namespace SafeNetwork

open Std Crdt FileSystem

/-- What the storage uses of its crates, beyond registers: encodings (`bincode`, `rmp_serde`) and
hashes (`tiny_keccak`, `xor_name`). An encoding in memory does not fail, and hashes are free of
collisions. -/
structure StorageScheme extends RegisterScheme where
  /-- `XorName::from_content` of an encoded register address. -/
  RegisterId : Type
  /-- `RegisterCmdId` — the hash of an encoded command. -/
  CmdId : Type
  SpentProofShare : Type
  Keypair : Type
  [decidableEqRegisterId : DecidableEq RegisterId]
  [decidableEqCmdId : DecidableEq CmdId]
  keypairPublicKey : Keypair → UserKey
  sign : Keypair → List UInt8 → UserSignature
  verifyUser_sign : ∀ keypair bytes, verifyUser (keypairPublicKey keypair) (sign keypair bytes) bytes = true
  /-- `bincode::serialize` of a creation. -/
  serializeCreate : CreateRegister toRegisterScheme → List UInt8
  /-- `bincode::serialize` of an edit. -/
  serializeEdit : EditRegister toRegisterScheme → List UInt8
  /-- `utils::serialise` of a command. -/
  serialise : RegisterCmd toRegisterScheme → List UInt8
  /-- `utils::deserialise` of a command. -/
  deserialise : List UInt8 → Option (RegisterCmd toRegisterScheme)
  deserialise_serialise : ∀ cmd, deserialise (serialise cmd) = some cmd
  registerId : RegisterAddress → RegisterId
  registerId_injective : Function.Injective registerId
  registerIdBits : RegisterId → List Bool
  operationId : List UInt8 → CmdId
  operationId_injective : Function.Injective operationId
  /-- `XorName::from_content` of a chunk. -/
  fromContent : List UInt8 → XorName
  /-- `rmp_serde::from_slice` of an entry of a spentbook. -/
  decodeShare : Entry → Option SpentProofShare
  sizeOfRegisterCmd : Nat
  /-- `to_storage_level` of the ratio of used space to the minimum capacity, in floating point. -/
  toStorageLevel : Nat → Nat → UInt8

attribute [instance] StorageScheme.decidableEqRegisterId StorageScheme.decidableEqCmdId

/-- A component of a path below the storage directory. -/
inductive Component (RegisterId CmdId : Type) where
  | chunks
  | register
  | bit (value : Bool)
  | chunk (name : XorName)
  | registerDir (id : RegisterId)
  | cmd (id : CmdId)
  | other (text : String)
deriving DecidableEq

structure ChunkAddress where
  name : XorName
deriving DecidableEq

structure SpentbookAddress where
  name : XorName
deriving DecidableEq

inductive DataAddress where
  | safeKey (name : XorName)
  | bytes (address : ChunkAddress)
  | register (address : RegisterAddress)
  | spentbook (address : SpentbookAddress)
deriving DecidableEq

def DataAddress.name : DataAddress → XorName
  | .safeKey name => name
  | .bytes addr => addr.name
  | .register addr => addr.name
  | .spentbook addr => addr.name

/-- `storage::Error`. -/
inductive StorageError (UserKey Hash : Type) where
  | notEnoughSpace
  | registerNotFound (address : RegisterAddress)
  | chunkNotFound (name : XorName)
  | unsupportedDataType (address : DataAddress)
  | invalidSignature (publicKey : UserKey)
  | io (error : IoError)
  | networkData (error : TypesError UserKey Hash)
  /-- Register command destination address doesn't match stored register address. -/
  | registerAddrMismatch (cmdDstAddr regAddr : RegisterAddress)

namespace StorageScheme

/-- A component of a path below the storage directory. -/
abbrev Name (S : StorageScheme) : Type := Component S.RegisterId S.CmdId

abbrev Path (S : StorageScheme) : Type := List S.Name

abbrev Error (S : StorageScheme) : Type := StorageError S.UserKey S.Hash

abbrev Result (S : StorageScheme) (α : Type) : Type := Except S.Error α

/-- `RegisterCmd`. -/
abbrev Cmd (S : StorageScheme) : Type := RegisterCmd S.toRegisterScheme

end StorageScheme

/-! ## Used space -/

/-- `StorageLevel` — whether a new level of used space has been passed. -/
inductive StorageLevel where
  | updated (level : UInt8)
  | noChange
deriving DecidableEq

/-- The number of values of a `usize`. -/
def usizeModulus : Nat := 2 ^ 64

/-- `UsedSpace` — the counter is a `usize`, below `usizeModulus`. -/
structure UsedSpace where
  minCapacity : Nat
  maxCapacity : Nat
  lastSeenLevel : UInt8
  usedSpace : Nat

namespace UsedSpace

def new (minCapacity maxCapacity : Nat) : UsedSpace := ⟨minCapacity, maxCapacity, 0, 0⟩

/-- `UsedSpace::increase` — `fetch_add` wraps around. -/
def increase (S : StorageScheme) (self : UsedSpace) (size : Nat) : StorageLevel × UsedSpace :=
  let used := (self.usedSpace + size) % usizeModulus
  let currentLevel := S.toStorageLevel used self.minCapacity
  if currentLevel > self.lastSeenLevel then
    (.updated currentLevel, { self with usedSpace := used, lastSeenLevel := currentLevel })
  else (.noChange, { self with usedSpace := used })

/-- `UsedSpace::decrease` — `fetch_sub` wraps around. -/
def decrease (self : UsedSpace) (size : Nat) : UsedSpace :=
  { self with usedSpace := (self.usedSpace + usizeModulus - size % usizeModulus) % usizeModulus }

/-- `UsedSpace::can_add` — the addition wraps around. -/
def canAdd (self : UsedSpace) (size : Nat) : Bool :=
  (self.usedSpace + size) % usizeModulus ≤ self.maxCapacity

def hasReachedMinCapacity (self : UsedSpace) : Bool := self.usedSpace ≥ self.minCapacity

variable {S : StorageScheme} (self : UsedSpace) (size : Nat)

@[simp] theorem increase_usedSpace : (self.increase S size).2.usedSpace = (self.usedSpace + size) % usizeModulus := by
  unfold increase
  simp only
  split <;> rfl

@[simp] theorem increase_maxCapacity : (self.increase S size).2.maxCapacity = self.maxCapacity := by
  unfold increase
  simp only
  split <;> rfl

@[simp] theorem decrease_maxCapacity : (self.decrease size).maxCapacity = self.maxCapacity := by
  unfold decrease
  rfl

end UsedSpace

/-! ## State and layout -/

/-- The state of a storage: the disk and the counter of used space. -/
structure StorageState (S : StorageScheme) where
  fs : Fs S.Name
  usedSpace : UsedSpace

def bitTreeDepth : Nat := 20

/-- `prefix_tree_path` — one directory for each of the leading bits. -/
def prefixTreePath {S : StorageScheme} (root : S.Path) (bits : List Bool) : S.Path :=
  root ++ (bits.take bitTreeDepth).map .bit

def listFilesIn {S : StorageScheme} (os : Os S.Name) (fs : Fs S.Name) (path : S.Path) :
    List S.Path :=
  if !fs.pathExists os path then [] else fs.walk os path

end SafeNetwork
