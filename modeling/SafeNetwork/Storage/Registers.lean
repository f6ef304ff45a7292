import SafeNetwork.Storage.Data
import SafeNetwork.Storage.RegisterStore

/-!
# Register storage

`storage/registers.rs`: commands are applied to the register that the stored commands give, and the
accepted ones are stored. An edit that arrives before the creation is stored unchecked, to be checked
when the creation arrives; a creation that arrives after another one is stored unchecked.
-/

namespace SafeNetwork

open Std Crdt FileSystem

variable {S : StorageScheme}

namespace RegisterStorage

/-- `RegisterStorage::apply` — with all validations. -/
def apply (cmd : S.Cmd) (register : Register S.toRegisterScheme) :
    S.Result (Register S.toRegisterScheme) :=
  let addr := cmd.dstAddress
  if addr ≠ register.address then .error (.registerAddrMismatch addr register.address)
  else
    match cmd with
    | .create _ _ => .ok register
    | .edit ⟨op, auth⟩ =>
      if !auth.verifyAuthority (S.serializeEdit op) then .error (.invalidSignature auth.publicKey)
      else do
        (register.checkPermissions .write (some (.key auth.publicKey))).mapError .networkData
        (register.applyOp op.edit).mapError .networkData

/-- `RegisterStorage::try_to_apply_cmd_against_register_state` — the stored register after the
command; after an error it is unchanged. -/
def tryToApplyCmdAgainstRegisterState (cmd : S.Cmd) (storedReg : StoredRegister S) :
    S.Result (StoredRegister S) :=
  match storedReg.state, cmd with
  -- no op, since already created; the command is not pushed to the log
  | some _, .create _ _ => .ok storedReg
  | some register, .edit _ => do
    let register ← apply cmd register
    return { storedReg with state := some register, opLog := storedReg.opLog ++ [cmd] }
  | none, .create ⟨op, auth⟩ _ =>
    if !auth.verifyAuthority (S.serializeCreate op) then .error (.invalidSignature auth.publicKey)
    else do
      let register ← storedReg.opLog.foldlM (fun register cmd => apply cmd register) op.register
      return { storedReg with state := some register, opLog := storedReg.opLog ++ [cmd] }
  | none, .edit _ => .ok { storedReg with opLog := storedReg.opLog ++ [cmd] }

/-- One command of a reload: edits are applied, without checking signature or permissions. -/
def replayCmd (register : Register S.toRegisterScheme) :
    S.Cmd → S.Result (Register S.toRegisterScheme)
  | .edit ⟨op, _⟩ => (register.applyOp op.edit).mapError .networkData
  | .create _ _ => .ok register

def tryLoadStoredRegister (os : Os S.Name) (fs : Fs S.Name) (addr : RegisterAddress) :
    S.Result (StoredRegister S) :=
  let storedReg := RegisterStore.openRegLogFromDisk os fs addr
  match storedReg.state with
  | none => .ok storedReg
  | some register => do
    let register ← storedReg.opLog.foldlM replayCmd register
    return { storedReg with state := some register }

/-- The loop of `update`: the commands that apply one after the other; others are discarded. -/
def acceptCmds (storedReg : StoredRegister S) : List S.Cmd → List S.Cmd
  | [] => []
  | cmd :: rest =>
    match tryToApplyCmdAgainstRegisterState cmd storedReg with
    | .error _ => acceptCmds storedReg rest
    | .ok storedReg => cmd :: acceptCmds storedReg rest

/-- `RegisterStorage::update` — on receiving data from other nodes. -/
def update (os : Os S.Name) (self : StorageState S) (data : ReplicatedRegisterLog S) :
    S.Result StorageLevel × StorageState S :=
  match tryLoadStoredRegister os self.fs data.address with
  | .error error => (.error error, self)
  | .ok storedReg =>
    RegisterStore.writeLogToDisk os self (acceptCmds storedReg data.opLog) storedReg.opLogPath

def write (os : Os S.Name) (self : StorageState S) (cmd : S.Cmd) :
    S.Result StorageLevel × StorageState S :=
  match tryLoadStoredRegister os self.fs cmd.dstAddress with
  | .error error => (.error error, self)
  | .ok storedReg =>
    match tryToApplyCmdAgainstRegisterState cmd storedReg with
    | .error error => (.error error, self)
    | .ok storedReg => RegisterStore.writeLogToDisk os self [cmd] storedReg.opLogPath

/-! ## Reading -/

def getRegister (os : Os S.Name) (fs : Fs S.Name) (address : RegisterAddress) (action : Action)
    (requester : User S.UserKey) : S.Result (Register S.toRegisterScheme) := do
  let storedReg ← tryLoadStoredRegister os fs address
  match storedReg.state with
  | some register =>
    (register.checkPermissions action (some requester)).mapError .networkData
    return register
  | none => .error (.registerNotFound address)

def read (os : Os S.Name) (fs : Fs S.Name) (query : RegisterQuery S.toRegisterScheme)
    (requester : User S.UserKey) : NodeQueryResponse S :=
  match query with
  | .get address =>
    .getRegister ((getRegister os fs address .read requester).mapError (·.toDataError))
  | .read address =>
    .readRegister (((getRegister os fs address .read requester).map (·.read)).mapError
      (·.toDataError))
  | .getOwner address =>
    .getRegisterOwner (((getRegister os fs address .read requester).map (·.owner)).mapError
      (·.toDataError))
  | .getEntry address hash =>
    .getRegisterEntry (((getRegister os fs address .read requester).bind fun register =>
      (register.get hash).mapError .networkData).mapError (·.toDataError))
  | .getPolicy address =>
    .getRegisterPolicy (((getRegister os fs address .read requester).map (·.policy)).mapError
      (·.toDataError))
  | .getUserPermissions address user =>
    .getRegisterUserPermissions (((getRegister os fs address .read requester).bind fun register =>
      (register.permissions user).mapError .networkData).mapError (·.toDataError))

/-- `RegisterStorage::get_register_replica` — the stored log, of a register that may not exist. -/
def getRegisterReplica (os : Os S.Name) (fs : Fs S.Name) (address : RegisterAddress) :
    S.Result (ReplicatedRegisterLog S) := do
  let storedReg ← tryLoadStoredRegister os fs address
  return ⟨address, storedReg.opLog⟩

/-! ## Spentbooks -/

/-- `create_reg_w_policy` — with the section signature that `section_sig` makes with a random key. -/
def createRegWPolicy (name : XorName) (tag : UInt64) (policy : Policy S.toRegisterScheme)
    (nodeKeypair : S.Keypair) (sectionSig : SectionSig S.toKeyScheme) : S.Cmd :=
  let op : CreateRegister S.toRegisterScheme := ⟨name, tag, policy⟩
  let signature := S.sign nodeKeypair (S.serializeCreate op)
  .create ⟨op, ⟨S.keypairPublicKey nodeKeypair, signature⟩⟩ sectionSig

def spentbookPolicy (sectionPk : S.UserKey) : Policy S.toRegisterScheme :=
  ⟨.key sectionPk, (∅ : ExtTreeMap (User S.UserKey) Permissions).insert .anyone ⟨some true⟩⟩

/-- The log that a spentbook command is stored as: a new creation and the command. -/
def spentbookLog (cmd : S.Cmd) (sectionPk : S.UserKey) (nodeKeypair : S.Keypair)
    (sectionSig : SectionSig S.toKeyScheme) : ReplicatedRegisterLog S :=
  let address := cmd.dstAddress
  let createCmd :=
    createRegWPolicy address.name spentbookTypeTag (spentbookPolicy sectionPk) nodeKeypair sectionSig
  ⟨address, [createCmd, cmd]⟩

def writeSpentbookRegister (os : Os S.Name) (self : StorageState S) (cmd : S.Cmd)
    (sectionPk : S.UserKey) (nodeKeypair : S.Keypair) (sectionSig : SectionSig S.toKeyScheme) :
    S.Result StorageLevel × StorageState S :=
  update os self (spentbookLog cmd sectionPk nodeKeypair sectionSig)

end RegisterStorage

end SafeNetwork
