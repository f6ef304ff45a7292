import SafeNetwork.Library.OpenMerkleReg
import SafeNetwork.NetworkKnowledge.SectionAuthorityProvider

/-!
# Registers

`types/register` and the register commands of `messaging/data/register.rs`. A register is a Merkle
register of entries with an owner and permissions. Its entries are written by signed edits; an edit
names the register twice, in the signed operation and again in the CRDT operation inside it.
-/

namespace SafeNetwork

open Std Crdt

/-- What registers use of their crates, beyond section keys: the keys of users (`ed25519_dalek`,
`blsttc`) and the Merkle register of entries (`crdts`). -/
structure RegisterScheme extends KeyScheme where
  /-- `types::PublicKey` — a key of any supported kind. -/
  UserKey : Type
  UserSignature : Type
  [decidableEqUserKey : DecidableEq UserKey]
  [ordUserKey : Ord UserKey]
  [transOrdUserKey : TransOrd UserKey]
  [lawfulEqOrdUserKey : LawfulEqOrd UserKey]
  /-- `PublicKey::Bls` — a section key as a key of a user. -/
  bls : PublicKey → UserKey
  /-- `PublicKey::verify` of a signature over some bytes. -/
  verifyUser : UserKey → UserSignature → List UInt8 → Bool
  registers : OpenMerkleReg Hash (List UInt8)

attribute [instance] RegisterScheme.decidableEqUserKey RegisterScheme.ordUserKey
  RegisterScheme.transOrdUserKey RegisterScheme.lawfulEqOrdUserKey

/-- `Entry` — its size is limited by `maxRegEntrySize`. -/
abbrev Entry : Type := List UInt8

/-- `RegisterAddress`. -/
@[ext]
structure RegisterAddress where
  name : XorName
  tag : UInt64
deriving DecidableEq

/-- `User` — who can access a register. -/
inductive User (UserKey : Type) where
  | anyone
  | key (publicKey : UserKey)
deriving DecidableEq

namespace User

variable {UserKey : Type}

def toOption : User UserKey → Option UserKey
  | anyone => none
  | key publicKey => some publicKey

/-- Anyone comes before every key. -/
instance [Ord UserKey] : Ord (User UserKey) := ⟨compareOn toOption⟩

instance [Ord UserKey] [TransOrd UserKey] : TransOrd (User UserKey) :=
  inferInstanceAs (TransCmp (compareOn toOption))

instance [Ord UserKey] [LawfulEqOrd UserKey] : LawfulEqOrd (User UserKey) where
  compare_self := by
    intro user
    change compare user.toOption user.toOption = .eq
    exact ReflCmp.compare_self
  eq_of_compare := by
    intro left right same
    have options : left.toOption = right.toOption := Std.compare_eq_iff_eq.mp same
    cases left <;> cases right <;> simp_all [toOption]

end User

inductive Action where
  | read
  | write
deriving DecidableEq

/-- `Permissions` — what a user may do; nothing said falls back to what anyone may do. -/
structure Permissions where
  write : Option Bool
deriving DecidableEq

/-- `Permissions::is_allowed` — reading always is. -/
def Permissions.isAllowed (self : Permissions) : Action → Option Bool
  | .read => some true
  | .write => self.write

/-- The errors of `types` that registers return. -/
inductive TypesError (UserKey Hash : Type) where
  | accessDenied (user : User UserKey)
  | entryTooBig (size max : Nat)
  | tooManyEntries (size : Nat)
  | noSuchEntry (hash : Hash)
  | noSuchUser (user : User UserKey)
  | crdtWrongAddress (address : RegisterAddress)

variable {R : RegisterScheme}

/-- `types::Result`. -/
abbrev RegisterScheme.TypesResult (R : RegisterScheme) (α : Type) : Type :=
  Except (TypesError R.UserKey R.Hash) α

/-- `Policy` — owner and permissions of a register. -/
structure Policy (R : RegisterScheme) where
  owner : User R.UserKey
  permissions : ExtTreeMap (User R.UserKey) Permissions

namespace Policy

def isActionAllowedByUser (self : Policy R) (user : User R.UserKey) (action : Action) :
    Option Bool :=
  self.permissions[user]?.bind fun perms => perms.isAllowed action

/-- `Policy::is_action_allowed` — the owner may do anything. -/
def isActionAllowed (self : Policy R) (requester : User R.UserKey) (action : Action) :
    R.TypesResult Unit :=
  if action = .read ∨ requester = self.owner then .ok ()
  else
    match (self.isActionAllowedByUser requester action).or
        (self.isActionAllowedByUser .anyone action) with
    | some true => .ok ()
    | some false => .error (.accessDenied requester)
    | none => .error (.accessDenied requester)

/-- `Policy::permissions` — of the owner they are full, whatever the map says. -/
def permissionsOf (self : Policy R) (user : User R.UserKey) : Option Permissions :=
  if user = self.owner then some ⟨some true⟩ else self.permissions[user]?

end Policy

/-- `CrdtOperation` — a node for the replicas of a register. -/
structure CrdtOperation (R : RegisterScheme) where
  address : RegisterAddress
  crdtOp : Node R.Hash Entry
  source : User R.UserKey
  signature : Option R.UserSignature

/-- `RegisterCrdt` — the entries of a register. -/
structure RegisterCrdt (R : RegisterScheme) where
  address : RegisterAddress
  data : R.registers.Reg

namespace RegisterCrdt

def new (address : RegisterAddress) : RegisterCrdt R := ⟨address, R.registers.new⟩

/-- `RegisterCrdt::size` — orphans count. -/
def size (self : RegisterCrdt R) : Nat :=
  R.registers.numNodes self.data + R.registers.numOrphans self.data

/-- `RegisterCrdt::write` — the hash of the new entry and the operation, and the entries with it. -/
def write (self : RegisterCrdt R) (entry : Entry) (children : ExtTreeSet R.Hash)
    (source : User R.UserKey) : (R.Hash × CrdtOperation R) × RegisterCrdt R :=
  let crdtOp : Node R.Hash Entry := ⟨children, entry⟩
  ((R.registers.hash crdtOp, ⟨self.address, crdtOp, source, none⟩),
    { self with data := R.registers.apply self.data crdtOp })

def applyOp (self : RegisterCrdt R) (op : CrdtOperation R) : R.TypesResult (RegisterCrdt R) :=
  if self.address ≠ op.address then .error (.crdtWrongAddress op.address)
  else .ok { self with data := R.registers.apply self.data op.crdtOp }

def get (self : RegisterCrdt R) (hash : R.Hash) : Option Entry :=
  (R.registers.node self.data hash).map Node.value

/-- `RegisterCrdt::read` — the current entries with their hashes. -/
def read (self : RegisterCrdt R) : List (R.Hash × Entry) :=
  (R.registers.read self.data).map fun node => (R.registers.hash node, node.value)

end RegisterCrdt

def maxRegEntrySize : Nat := 1024

def maxRegNumEntries : Nat := 1024

structure Register (R : RegisterScheme) where
  authority : User R.UserKey
  crdt : RegisterCrdt R
  policy : Policy R

namespace Register

def new (authority : User R.UserKey) (name : XorName) (tag : UInt64) (policy : Policy R) :
    Register R :=
  ⟨authority, .new ⟨name, tag⟩, policy⟩

def address (self : Register R) : RegisterAddress := self.crdt.address

def owner (self : Register R) : User R.UserKey := self.policy.owner

def size (self : Register R) : Nat := self.crdt.size

def get (self : Register R) (hash : R.Hash) : R.TypesResult Entry :=
  match self.crdt.get hash with
  | some entry => .ok entry
  | none => .error (.noSuchEntry hash)

def read (self : Register R) : List (R.Hash × Entry) := self.crdt.read

def permissions (self : Register R) (user : User R.UserKey) : R.TypesResult Permissions :=
  match self.policy.permissionsOf user with
  | some perms => .ok perms
  | none => .error (.noSuchUser user)

def checkEntryAndRegSizes (self : Register R) (entry : Entry) : R.TypesResult Unit :=
  if entry.length > maxRegEntrySize then .error (.entryTooBig entry.length maxRegEntrySize)
  else if self.crdt.size ≥ maxRegNumEntries then .error (.tooManyEntries self.crdt.size)
  else .ok ()

def write (self : Register R) (entry : Entry) (children : ExtTreeSet R.Hash) :
    R.TypesResult ((R.Hash × CrdtOperation R) × Register R) := do
  self.checkEntryAndRegSizes entry
  let (written, crdt) := self.crdt.write entry children self.authority
  return (written, { self with crdt := crdt })

def applyOp (self : Register R) (op : CrdtOperation R) : R.TypesResult (Register R) := do
  self.checkEntryAndRegSizes op.crdtOp.value
  let crdt ← self.crdt.applyOp op
  return { self with crdt := crdt }

/-- `Register::check_permissions` — without a requester, those of the authority. -/
def checkPermissions (self : Register R) (action : Action) (requester : Option (User R.UserKey)) :
    R.TypesResult Unit :=
  self.policy.isActionAllowed (requester.getD self.authority) action

def known (self : Register R) : Finset R.Hash := R.registers.applied self.crdt.data

def grow (self : Register R) (node : Node R.Hash Entry) : Register R :=
  { self with crdt := { self.crdt with data := R.registers.apply self.crdt.data node } }

end Register

/-! ## Commands -/

/-- `ClientAuth` — a public key and a signature made with it. -/
structure ClientAuth (R : RegisterScheme) where
  publicKey : R.UserKey
  signature : R.UserSignature

def ClientAuth.verifyAuthority (self : ClientAuth R) (payload : List UInt8) : Bool :=
  R.verifyUser self.publicKey self.signature payload

structure CreateRegister (R : RegisterScheme) where
  name : XorName
  tag : UInt64
  policy : Policy R

def CreateRegister.address (self : CreateRegister R) : RegisterAddress := ⟨self.name, self.tag⟩

structure EditRegister (R : RegisterScheme) where
  address : RegisterAddress
  edit : CrdtOperation R

structure SignedRegisterCreate (R : RegisterScheme) where
  op : CreateRegister R
  auth : ClientAuth R

structure SignedRegisterEdit (R : RegisterScheme) where
  op : EditRegister R
  auth : ClientAuth R

def SignedRegisterEdit.hash (self : SignedRegisterEdit R) : R.Hash :=
  R.registers.hash self.op.edit.crdtOp

/-- `RegisterCmd` — a command that is kept in the log of a register. -/
inductive RegisterCmd (R : RegisterScheme) where
  | create (cmd : SignedRegisterCreate R) (sectionSig : SectionSig R.toKeyScheme)
  | edit (cmd : SignedRegisterEdit R)

def RegisterCmd.dstAddress : RegisterCmd R → RegisterAddress
  | .create cmd _ => cmd.op.address
  | .edit cmd => cmd.op.address

inductive RegisterQuery (R : RegisterScheme) where
  | get (address : RegisterAddress)
  | read (address : RegisterAddress)
  | getEntry (address : RegisterAddress) (hash : R.Hash)
  | getPolicy (address : RegisterAddress)
  | getUserPermissions (address : RegisterAddress) (user : User R.UserKey)
  | getOwner (address : RegisterAddress)

end SafeNetwork
