import SafeNetwork.Library.Coding
import SafeNetwork.NetworkKnowledge.SampleKeys
import SafeNetwork.Storage.Scheme

/-!
# A sample storage scheme

Numbers stand for the keys of users, and a signature is the signer with the signed bytes. Hashes list
what they are the hash of. The scheme shows that the interface the storage is built on can be met, and
serves concrete runs.
-/

namespace SafeNetwork

open Std Crdt

def sampleEntryHash (node : Node (List Nat) (List UInt8)) : List Nat :=
  (node.value.map UInt8.toNat :: node.children.toList).flatMap fun part => part.length :: part

theorem sampleEntryHash_injective : Function.Injective sampleEntryHash := by
  intro left right same
  obtain ⟨values, children⟩ := List.cons.inj (flatMap_length_cons_injective same)
  have entries : left.value = right.value :=
    List.map_injective_iff.mpr (fun _ _ => UInt8.toNat.inj) values
  have sets : left.children = right.children := by
    apply ExtTreeSet.ext_mem
    intro child
    rw [← ExtTreeSet.mem_toList, ← ExtTreeSet.mem_toList, children]
  exact Node.ext sets entries

theorem length_lt_sampleEntryHash (node : Node (List Nat) (List UInt8)) (child : List Nat)
    (named : child ∈ node.children) : child.length < (sampleEntryHash node).length := by
  have inside : child ∈ node.value.map UInt8.toNat :: node.children.toList :=
    List.mem_cons_of_mem _ (ExtTreeSet.mem_toList.mpr named)
  have part : (child.length :: child).Sublist (sampleEntryHash node) :=
    List.sublist_flatten_of_mem (List.mem_map_of_mem inside)
  exact part.length_le

def sampleRegisters : OpenMerkleReg (List Nat) (List UInt8) :=
  OpenMerkleReg.ofRank sampleEntryHash sampleEntryHash_injective List.length
    length_lt_sampleEntryHash

/-- Users `0, 1, 2, …`, who sign by repeating what they sign. -/
abbrev sampleRegisterScheme : RegisterScheme where
  toKeyScheme := sampleKeys
  UserKey := Nat
  UserSignature := Nat × List UInt8
  bls := id
  verifyUser key signature bytes := signature == (key, bytes)
  registers := sampleRegisters

namespace SampleStorage

def name : Coding XorName :=
  (Coding.nat.retract Bool.toNat (fun bit => some (bit == 1)) (by decide)).list.retract XorName.bits
    (fun bits => if length : bits.length = 256 then some ⟨bits, length⟩ else none)
    (fun name => dif_pos name.length_eq)

def address : Coding RegisterAddress :=
  (name.pair Coding.nat).retract (fun address => (address.name, address.tag.toNat))
    (fun parts => some ⟨parts.1, .ofNat parts.2⟩) (by simp)

def user : Coding (User Nat) :=
  (Coding.nat.choice Coding.nat).retract
    (fun user => user.toOption.elim (.inl 0) .inr)
    (fun parts => some (parts.elim (fun _ => .anyone) .key))
    (by rintro (_ | key) <;> rfl)

def bytes : Coding (List UInt8) :=
  (Coding.nat.retract UInt8.toNat (fun number => some (.ofNat number)) (by simp)).list

def auth : Coding (ClientAuth sampleRegisterScheme) :=
  (Coding.nat.pair (Coding.nat.pair bytes)).retract (fun auth => (auth.publicKey, auth.signature))
    (fun parts => some ⟨parts.1, parts.2⟩) (fun _ => rfl)

def permissions : Coding Permissions :=
  Coding.nat.retract (fun permissions => permissions.write.elim 2 Bool.toNat)
    (fun number => some ⟨if number = 2 then none else some (number == 1)⟩)
    (by rintro ⟨_ | _ | _⟩ <;> rfl)

def create : Coding (CreateRegister sampleRegisterScheme) :=
  (address.pair (user.pair (user.pair permissions).treeMap)).retract
    (fun op => (op.address, op.policy.owner, op.policy.permissions))
    (fun parts => some ⟨parts.1.name, parts.1.tag, parts.2.1, parts.2.2⟩) (fun _ => rfl)

def edit : Coding (EditRegister sampleRegisterScheme) :=
  (address.pair (address.pair ((Coding.nat.list.treeSet.pair bytes).pair
    (user.pair (Coding.nat.pair bytes).list)))).retract
    (fun op => (op.address, op.edit.address, (op.edit.crdtOp.children, op.edit.crdtOp.value),
      op.edit.source, op.edit.signature.toList))
    (fun parts => some ⟨parts.1, parts.2.1, ⟨parts.2.2.1.1, parts.2.2.1.2⟩, parts.2.2.2.1,
      parts.2.2.2.2.head?⟩)
    (by rintro ⟨_, _, _, _, _ | _⟩ <;> rfl)

def cmd : Coding (RegisterCmd sampleRegisterScheme) :=
  (((create.pair auth).pair (Coding.nat.pair (Coding.nat.pair Coding.nat))).choice
    (edit.pair auth)).retract
    (fun
      | .create signed sectionSig =>
        .inl ((signed.op, signed.auth), sectionSig.publicKey, sectionSig.signature)
      | .edit signed => .inr (signed.op, signed.auth))
    (fun parts => some (parts.elim
      (fun parts => .create ⟨parts.1.1, parts.1.2⟩ ⟨parts.2.1, parts.2.2⟩)
      (fun parts => .edit ⟨parts.1, parts.2⟩)))
    (by rintro (_ | _) <;> rfl)

end SampleStorage

abbrev sampleStorage : StorageScheme where
  toRegisterScheme := sampleRegisterScheme
  RegisterId := RegisterAddress
  CmdId := List UInt8
  SpentProofShare := List UInt8
  Keypair := Nat
  keypairPublicKey keypair := keypair
  sign keypair bytes := (keypair, bytes)
  verifyUser_sign keypair bytes := by simp
  serializeCreate := SampleStorage.create.encode
  serializeEdit := SampleStorage.edit.encode
  serialise := SampleStorage.cmd.encode
  deserialise bytes := (SampleStorage.cmd.decode bytes).map Prod.fst
  deserialise_serialise cmd := by
    have read := SampleStorage.cmd.decode_encode cmd []
    rw [List.append_nil] at read
    rw [read]
    rfl
  registerId := id
  registerId_injective := Function.injective_id
  registerIdBits _ := []
  operationId := id
  operationId_injective := Function.injective_id
  fromContent bytes :=
    ⟨(List.replicate bytes.length true ++ List.replicate 256 false).take 256, by
      rw [List.length_take, List.length_append, List.length_replicate, List.length_replicate]
      omega⟩
  decodeShare := some
  sizeOfRegisterCmd := 100
  toStorageLevel used capacity := .ofNat (used / (capacity + 1))

/-! ## Sample commands -/

theorem length_sampleBits : (List.replicate 256 false).length = 256 := List.length_replicate

def sampleRegisterName : XorName := ⟨List.replicate 256 false, length_sampleBits⟩

def sampleAddress : RegisterAddress := ⟨sampleRegisterName, 0⟩

def samplePolicy (owner : Nat) : Policy sampleStorage.toRegisterScheme :=
  ⟨.key owner, (∅ : ExtTreeMap (User Nat) Permissions).insert .anyone ⟨some true⟩⟩

def sampleOp (address : RegisterAddress) (owner : Nat) :
    CreateRegister sampleStorage.toRegisterScheme :=
  ⟨address.name, address.tag, samplePolicy owner⟩

def sampleCreate (address : RegisterAddress) (owner signer : Nat) : sampleStorage.Cmd :=
  .create ⟨sampleOp address owner, owner, signer, SampleStorage.create.encode (sampleOp address owner)⟩
    ⟨0, 0, 0⟩

def sampleEditOp (address : RegisterAddress) (children : List (List Nat)) (entry : Entry) :
    EditRegister sampleStorage.toRegisterScheme :=
  ⟨address, address, ⟨.ofList children, entry⟩, .anyone, none⟩

def sampleEdit (address : RegisterAddress) (children : List (List Nat)) (entry : Entry)
    (user signer : Nat) : SignedRegisterEdit sampleStorage.toRegisterScheme :=
  ⟨sampleEditOp address children entry, user, signer,
    SampleStorage.edit.encode (sampleEditOp address children entry)⟩

def sampleOs : FileSystem.Os sampleStorage.Name := .inOrder

theorem sampleOs_reliable : sampleOs.Reliable := FileSystem.Os.inOrder_reliable

def sampleOtherOs : FileSystem.Os sampleStorage.Name := .ordered List.reverse List.reverse_perm

theorem sampleOtherOs_reliable : sampleOtherOs.Reliable :=
  FileSystem.Os.ordered_reliable List.reverse List.reverse_perm

end SafeNetwork
