import SafeNetwork.Storage.Registers

/-!
# Data storage

`storage/chunks.rs` and `storage/mod.rs`: chunks are files under their own names, and the data
storage of a node puts chunks, registers and spentbooks on one disk with one counter of used space.
A spentbook is kept as a register.
-/

namespace SafeNetwork

open Std Crdt FileSystem

variable {S : StorageScheme}

namespace ChunkStorage

def chunkAddrToFilepath (S : StorageScheme) (addr : ChunkAddress) : S.Path :=
  prefixTreePath [.chunks] addr.name.bits ++ [.chunk addr.name]

/-- `ChunkStorage::chunk_filepath_to_address` — from the file name alone. -/
def chunkFilepathToAddress (path : S.Path) : Option ChunkAddress :=
  match path.getLast? with
  | some (.chunk name) => some ⟨name⟩
  | _ => none

def addrs (os : Os S.Name) (fs : Fs S.Name) : List ChunkAddress :=
  (listFilesIn os fs [.chunks]).filterMap chunkFilepathToAddress

def removeChunk (os : Os S.Name) (self : StorageState S) (address : ChunkAddress) :
    S.Result Unit × StorageState S :=
  let filepath := chunkAddrToFilepath S address
  match self.fs.metadata os filepath with
  | .error error => (.error (.io error), self)
  | .ok len =>
    match self.fs.removeFile os filepath with
    | (.error error, fs) => (.error (.io error), { self with fs := fs })
    | (.ok (), fs) => (.ok (), ⟨fs, self.usedSpace.decrease len⟩)

/-- `ChunkStorage::get_chunk` — content that does not match the address counts as not found. -/
def getChunk (os : Os S.Name) (fs : Fs S.Name) (address : ChunkAddress) : S.Result (Chunk S) :=
  match fs.read os (chunkAddrToFilepath S address) with
  | .ok bytes =>
    let chunk : Chunk S := .new bytes
    if chunk.address ≠ address then .error (.chunkNotFound address.name) else .ok chunk
  | .error .notFound => .error (.chunkNotFound address.name)
  | .error other => .error (.io other)

def get (os : Os S.Name) (fs : Fs S.Name) (address : ChunkAddress) : NodeQueryResponse S :=
  .getChunk ((getChunk os fs address).mapError (·.toDataError))

/-- `ChunkStorage::store` — unless a file is already there. -/
def store (os : Os S.Name) (self : StorageState S) (chunk : Chunk S) :
    S.Result StorageLevel × StorageState S :=
  let filepath := chunkAddrToFilepath S chunk.address
  if self.fs.pathExists os filepath then (.ok .noChange, self)
  else if !self.usedSpace.canAdd chunk.value.length then (.error .notEnoughSpace, self)
  else
    match self.fs.createDirAll os filepath.dropLast with
    | (.error error, fs) => (.error (.io error), { self with fs := fs })
    | (.ok (), fs) =>
      match fs.persist os filepath chunk.value with
      | (.error error, fs) => (.error (.io error), { self with fs := fs })
      | (.ok (), fs) =>
        let (storageLevel, usedSpace) := self.usedSpace.increase S chunk.value.length
        (.ok storageLevel, ⟨fs, usedSpace⟩)

end ChunkStorage

namespace DataStorage

/-- `DataStorage::new` on a directory: the directory is used as it is, with a new counter. -/
def new (fs : Fs S.Name) (usedSpace : UsedSpace) : StorageState S := ⟨fs, usedSpace⟩

/-- `DataStorage::store` — `sectionSig` is the signature that a spentbook's new creation gets. -/
def store (os : Os S.Name) (self : StorageState S) (data : ReplicatedData S)
    (sectionPk : S.UserKey) (nodeKeypair : S.Keypair) (sectionSig : SectionSig S.toKeyScheme) :
    S.Result StorageLevel × StorageState S :=
  match data with
  | .chunk chunk => ChunkStorage.store os self chunk
  | .registerLog log => RegisterStorage.update os self log
  | .registerWrite cmd => RegisterStorage.write os self cmd
  | .spentbookWrite cmd =>
    RegisterStorage.writeSpentbookRegister os self cmd sectionPk nodeKeypair sectionSig
  | .spentbookLog log => RegisterStorage.update os self log

def query (os : Os S.Name) (fs : Fs S.Name) (query : DataQuery S) (requester : User S.UserKey) :
    NodeQueryResponse S :=
  match query with
  | .getChunk addr => ChunkStorage.get os fs addr
  | .register query => RegisterStorage.read os fs query requester
  | .getSpentProofShares addr =>
    match RegisterStorage.read os fs (.get addr.registerAddress) requester with
    | .getRegister (.error (.dataNotFound _)) => .getSpentProofShares (.ok [])
    | .getRegister result =>
      .getSpentProofShares (result.map fun register =>
        register.read.filterMap fun entry => S.decodeShare entry.2)
    | other => other

def getFromLocalStore (os : Os S.Name) (fs : Fs S.Name) (address : DataAddress) :
    S.Result (ReplicatedData S) :=
  match address with
  | .bytes addr => (ChunkStorage.getChunk os fs addr).map .chunk
  | .register addr => (RegisterStorage.getRegisterReplica os fs addr).map .registerLog
  | .spentbook addr =>
    (RegisterStorage.getRegisterReplica os fs addr.registerAddress).map .spentbookLog
  | other => .error (.unsupportedDataType other)

def remove (os : Os S.Name) (self : StorageState S) (address : DataAddress) :
    S.Result Unit × StorageState S :=
  match address with
  | .bytes addr => ChunkStorage.removeChunk os self addr
  | .register addr => RegisterStore.deleteData os self addr
  | .spentbook addr => RegisterStore.deleteData os self addr.registerAddress
  | other => (.error (.unsupportedDataType other), self)

def dataAddrs (os : Os S.Name) (fs : Fs S.Name) : List DataAddress :=
  (ChunkStorage.addrs os fs).map .bytes ++ (RegisterStore.listAllRegAddrs os fs).map .register

end DataStorage

end SafeNetwork
