import SafeNetwork.Storage.Scheme

/-!
# The disk store of registers

`storage/register_store.rs`: a register is a directory of files, each with one encoded command under
the hash of its bytes. Opening a register reads all of them, in whatever order the directory is
listed, and takes the state from the first creation it meets. Files that cannot be read or decoded
are ignored.
-/

namespace SafeNetwork

open Std Crdt FileSystem

variable {S : StorageScheme}

/-- `StoredRegister` — a register with the log of its commands. -/
structure StoredRegister (S : StorageScheme) where
  state : Option (Register S.toRegisterScheme)
  opLog : List S.Cmd
  opLogPath : S.Path

def CreateRegister.register (op : CreateRegister S.toRegisterScheme) :
    Register S.toRegisterScheme :=
  .new op.policy.owner op.name op.tag op.policy

namespace RegisterStore

def addressToFilepath (S : StorageScheme) (addr : RegisterAddress) : S.Path :=
  let regId := S.registerId addr
  prefixTreePath [.register] (S.registerIdBits regId) ++ [.registerDir regId]

/-- One file of `list_all_reg_addrs`: the first readable command of a directory gives its address. -/
def listRegAddr (os : Os S.Name) (fs : Fs S.Name) (addrs : List (S.Path × RegisterAddress))
    (opFile : S.Path) : List (S.Path × RegisterAddress) :=
  let parent := opFile.dropLast
  if addrs.any fun found => found.1 = parent then addrs
  else
    match fs.read os opFile with
    | .error _ => addrs
    | .ok serializedData =>
      match S.deserialise serializedData with
      | none => addrs
      | some cmd => addrs ++ [(parent, cmd.dstAddress)]

/-- `RegisterStore::list_all_reg_addrs` — in the order in which the directories are met. -/
def listAllRegAddrs (os : Os S.Name) (fs : Fs S.Name) : List RegisterAddress :=
  ((listFilesIn os fs [.register]).foldl (listRegAddr os fs) []).map Prod.snd

/-- `RegisterStore::delete_data` — the path of a register is removed as a file. -/
def deleteData (os : Os S.Name) (self : StorageState S) (addr : RegisterAddress) :
    S.Result Unit × StorageState S :=
  let filepath := addressToFilepath S addr
  match self.fs.metadata os filepath with
  | .error error => (.error (.io error), self)
  | .ok len =>
    match self.fs.removeFile os filepath with
    | (.error error, fs) => (.error (.io error), { self with fs := fs })
    | (.ok (), fs) => (.ok (), ⟨fs, self.usedSpace.decrease len⟩)

def pushStored (stored : StoredRegister S) (cmd : S.Cmd) : StoredRegister S :=
  let stored := { stored with opLog := stored.opLog ++ [cmd] }
  match stored.state, cmd with
  | none, .create signed _ => { stored with state := some signed.op.register }
  | _, _ => stored

def readCmd (os : Os S.Name) (fs : Fs S.Name) (filepath : S.Path) : Option S.Cmd :=
  match fs.read os filepath with
  | .error _ => none
  | .ok serializedData => S.deserialise serializedData

def openRegLogFromDisk (os : Os S.Name) (fs : Fs S.Name) (addr : RegisterAddress) :
    StoredRegister S :=
  let path := addressToFilepath S addr
  if !fs.pathExists os path then ⟨none, [], path⟩
  else ((listFilesIn os fs path).filterMap (readCmd os fs)).foldl pushStored ⟨none, [], path⟩

def registerOperationId (S : StorageScheme) (cmd : S.Cmd) : S.CmdId :=
  S.operationId (S.serialise cmd)

def writeRegisterCmd (os : Os S.Name) (self : StorageState S) (cmd : S.Cmd) (path : S.Path) :
    S.Result StorageLevel × StorageState S :=
  if !self.usedSpace.canAdd S.sizeOfRegisterCmd then (.error .notEnoughSpace, self)
  else
    let path := path ++ [.cmd (registerOperationId S cmd)]
    if self.fs.pathExists os path then (.ok .noChange, self)
    else
      match self.fs.persist os path (S.serialise cmd) with
      | (.error error, fs) => (.error (.io error), { self with fs := fs })
      | (.ok (), fs) =>
        let (storageLevel, usedSpace) := self.usedSpace.increase S S.sizeOfRegisterCmd
        (.ok storageLevel, ⟨fs, usedSpace⟩)

/-- The loop of `write_log_to_disk`: it goes on after an error and keeps the last one, and the
first new storage level. -/
def writeCmds (os : Os S.Name) (path : S.Path) (lastErr : Option S.Error)
    (storageLevel : StorageLevel) (self : StorageState S) :
    List S.Cmd → Option S.Error × StorageLevel × StorageState S
  | [] => (lastErr, storageLevel, self)
  | cmd :: rest =>
    match writeRegisterCmd os self cmd path with
    | (.ok level, self) =>
      writeCmds os path lastErr (if storageLevel = .noChange then level else storageLevel) self rest
    | (.error error, self) => writeCmds os path (some error) storageLevel self rest

def writeLogToDisk (os : Os S.Name) (self : StorageState S) (log : List S.Cmd) (path : S.Path) :
    S.Result StorageLevel × StorageState S :=
  if log.isEmpty then (.ok .noChange, self)
  else
    match self.fs.createDirAll os path with
    | (.error error, fs) => (.error (.io error), { self with fs := fs })
    | (.ok (), fs) =>
      match writeCmds os path none .noChange { self with fs := fs } log with
      | (some error, _, self) => (.error error, self)
      | (none, storageLevel, self) => (.ok storageLevel, self)

end RegisterStore

end SafeNetwork
