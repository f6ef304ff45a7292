import SafeNetwork.Storage.Scheme

/-!
# Data and messages of the storage

The data a node stores, the queries it answers and the errors it sends, from `types` and
`messaging/data`. A text of an error is kept without the debug prints of values in it.
-/

namespace SafeNetwork

open Std Crdt FileSystem

variable {S : StorageScheme}

/-- `Chunk` — an immutable chunk of data under the hash of its value. -/
structure Chunk (S : StorageScheme) where
  address : ChunkAddress
  value : List UInt8
  address_eq : address = ⟨S.fromContent value⟩

def Chunk.new (value : List UInt8) : Chunk S := ⟨⟨S.fromContent value⟩, value, rfl⟩

@[ext]
theorem Chunk.ext {left right : Chunk S} (same : left.value = right.value) : left = right := by
  obtain ⟨_, _, rfl⟩ := left
  obtain ⟨_, _, rfl⟩ := right
  obtain rfl : _ = _ := same
  rfl

def spentbookTypeTag : UInt64 := 0

def SpentbookAddress.registerAddress (self : SpentbookAddress) : RegisterAddress :=
  ⟨self.name, spentbookTypeTag⟩

structure ReplicatedRegisterLog (S : StorageScheme) where
  address : RegisterAddress
  opLog : List S.Cmd

inductive ReplicatedData (S : StorageScheme) where
  | chunk (chunk : Chunk S)
  | registerWrite (cmd : S.Cmd)
  | registerLog (log : ReplicatedRegisterLog S)
  | spentbookWrite (cmd : S.Cmd)
  | spentbookLog (log : ReplicatedRegisterLog S)

def ReplicatedData.address : ReplicatedData S → DataAddress
  | .chunk data => .bytes data.address
  | .registerLog data => .register data.address
  | .registerWrite cmd => .register cmd.dstAddress
  | .spentbookLog data => .spentbook ⟨data.address.name⟩
  | .spentbookWrite cmd => .spentbook ⟨cmd.dstAddress.name⟩

/-- The errors of `messaging::data` that the storage sends. -/
inductive DataError (UserKey Hash : Type) where
  | accessDenied (user : User UserKey)
  | dataNotFound (address : DataAddress)
  | failedToWriteFile
  | noSuchEntry (hash : Hash)
  | noSuchUser (user : User UserKey)
  | invalidOperation (text : String)
  | noCorrespondingCmdError

/-- `messaging::data::Result`. -/
abbrev StorageScheme.DataResult (S : StorageScheme) (α : Type) : Type :=
  Except (DataError S.UserKey S.Hash) α

/-- `From<types::Error>`. -/
def TypesError.toDataError {UserKey Hash : Type} : TypesError UserKey Hash → DataError UserKey Hash
  | .noSuchEntry hash => .noSuchEntry hash
  | .noSuchUser user => .noSuchUser user
  | .accessDenied user => .accessDenied user
  | _ => .invalidOperation "DtError: "

/-- `From<storage::Error>`. -/
def StorageError.toDataError {UserKey Hash : Type} :
    StorageError UserKey Hash → DataError UserKey Hash
  | .notEnoughSpace => .failedToWriteFile
  | .registerNotFound address => .dataNotFound (.register address)
  | .chunkNotFound name => .dataNotFound (.bytes ⟨name⟩)
  | .networkData error => error.toDataError
  | _ => .invalidOperation "Failed to perform operation: "

/-- `DataQuery` — `GetFees` is answered before the storage is asked. -/
inductive DataQuery (S : StorageScheme) where
  | getChunk (address : ChunkAddress)
  | register (query : RegisterQuery S.toRegisterScheme)
  | getSpentProofShares (address : SpentbookAddress)

inductive NodeQueryResponse (S : StorageScheme) where
  | getChunk (result : S.DataResult (Chunk S))
  /-- Response to `RegisterQuery.get`. -/
  | getRegister (result : S.DataResult (Register S.toRegisterScheme))
  /-- Response to `RegisterQuery.getEntry`. -/
  | getRegisterEntry (result : S.DataResult Entry)
  /-- Response to `RegisterQuery.getOwner`. -/
  | getRegisterOwner (result : S.DataResult (User S.UserKey))
  /-- Response to `RegisterQuery.read`. -/
  | readRegister (result : S.DataResult (List (S.Hash × Entry)))
  /-- Response to `RegisterQuery.getPolicy`. -/
  | getRegisterPolicy (result : S.DataResult (Policy S.toRegisterScheme))
  /-- Response to `RegisterQuery.getUserPermissions`. -/
  | getRegisterUserPermissions (result : S.DataResult Permissions)
  /-- Response to `SpendQuery::GetSpentProofShares`. -/
  | getSpentProofShares (result : S.DataResult (List S.SpentProofShare))

end SafeNetwork
