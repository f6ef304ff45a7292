import SafeNetwork.Library.MerkleReg
import SafeNetwork.NetworkKnowledge.Error

/-!
# The DAG of section keys

`sections_dag.rs`: a Merkle DAG of BLS keys in which every key but the genesis key is signed
by its parent key. The Merkle register calls the parent section of a node its child, so that
the register's roots are the leaves of the DAG.

A loop of the source becomes a recursion on a bound. The loops over Merkle nodes follow hashes
and end with the register's acyclicity; the loop of `get_ancestors` follows keys and may not end.
-/

namespace SafeNetwork

open Std Crdt

/-- `SectionInfo` — a section key and its parent's signature over it. -/
structure SectionInfo (PublicKey Signature : Type) where
  key : PublicKey
  /-- Signature of the parent key over `key`. -/
  sig : Signature

/-- What the DAG uses of its crates: BLS keys and signatures (`blsttc`), the encoding of a key
(`bincode`) and the Merkle register of signed keys (`crdts`). -/
structure KeyScheme where
  PublicKey : Type
  Signature : Type
  Hash : Type
  [decidableEqPublicKey : DecidableEq PublicKey]
  [ordPublicKey : Ord PublicKey]
  [transOrdPublicKey : TransOrd PublicKey]
  [lawfulEqOrdPublicKey : LawfulEqOrd PublicKey]
  [decidableEqHash : DecidableEq Hash]
  [ordHash : Ord Hash]
  [transOrdHash : TransOrd Hash]
  [lawfulEqOrdHash : LawfulEqOrd Hash]
  /-- `PublicKey::verify` of a signature over some bytes. -/
  verify : PublicKey → Signature → List UInt8 → Bool
  serializeKey : PublicKey → Option (List UInt8)
  merkle : MerkleReg Hash (SectionInfo PublicKey Signature)

attribute [instance] KeyScheme.decidableEqPublicKey KeyScheme.ordPublicKey
  KeyScheme.transOrdPublicKey KeyScheme.lawfulEqOrdPublicKey KeyScheme.decidableEqHash
  KeyScheme.ordHash KeyScheme.transOrdHash KeyScheme.lawfulEqOrdHash

namespace KeyScheme

/-- `Node<SectionInfo>`. -/
abbrev Node (K : KeyScheme) : Type := Crdt.Node K.Hash (SectionInfo K.PublicKey K.Signature)

abbrev Result (K : KeyScheme) (α : Type) : Type := Except (Error K.PublicKey) α

/-- `SectionsDAG::verify_sig` — whether `parentKey` signed `sectionKey`. -/
def verifySig (K : KeyScheme) (parentKey sectionKey : K.PublicKey) (sig : K.Signature) : Bool :=
  match K.serializeKey sectionKey with
  | some bytes => K.verify parentKey sig bytes
  | none => false

def Linked (K : KeyScheme) (ancestor key : K.PublicKey) : Prop :=
  Relation.ReflTransGen (fun parent child => ∃ sig, K.verifySig parent child sig = true) ancestor key

end KeyScheme

/-- `SectionsDAG`. -/
@[ext]
structure SectionsDAG (K : KeyScheme) where
  genesisKey : K.PublicKey
  dag : K.merkle.Reg
  dagRoot : ExtTreeSet K.PublicKey
  hashes : ExtTreeMap K.PublicKey K.Hash

namespace SectionsDAG

variable {K : KeyScheme}

/-- `SectionsDAG::new` — the DAG of the genesis key alone. -/
def new (genesisKey : K.PublicKey) : SectionsDAG K := ⟨genesisKey, K.merkle.new, ∅, ∅⟩

/-! ## Lookups -/

def hasKey (self : SectionsDAG K) (key : K.PublicKey) : Bool :=
  key == self.genesisKey || self.hashes.contains key

/-- `SectionsDAG::keys` — the genesis key and the keys of all nodes. -/
def keys (self : SectionsDAG K) : List K.PublicKey :=
  self.genesisKey :: (K.merkle.allNodes self.dag).map fun node => node.value.key

def getHash (self : SectionsDAG K) (key : K.PublicKey) : K.Result K.Hash :=
  match self.hashes[key]? with
  | some hash => .ok hash
  | none => .error (.keyNotFound key)

def getNode (self : SectionsDAG K) (key : K.PublicKey) : K.Result K.Node := do
  let hash ← self.getHash key
  match K.merkle.node self.dag hash with
  | some node => .ok node
  | none => .error (.keyNotFound key)

/-- `SectionsDAG::parent_node` — absent for a child of the genesis key. -/
def parentNode (self : SectionsDAG K) (hash : K.Hash) : Option K.Node :=
  (K.merkle.children self.dag hash).head?

def childNodes (self : SectionsDAG K) (hash : K.Hash) : List K.Node :=
  K.merkle.parents self.dag hash

/-- `SectionsDAG::get_parent_key` — `none` for the genesis key. -/
def getParentKey (self : SectionsDAG K) (key : K.PublicKey) : K.Result (Option K.PublicKey) :=
  if key = self.genesisKey then .ok none
  else do
    let hash ← self.getHash key
    match self.parentNode hash with
    | some node => .ok (some node.value.key)
    | none => .ok (some self.genesisKey)

/-- The loop of `SectionsDAG::get_ancestors`, for at most `bound` keys. -/
def getAncestorsLoop (self : SectionsDAG K) : Nat → K.PublicKey → K.Result (List K.PublicKey)
  | 0, _ => .error .diverged
  | bound + 1, key => do
    match ← self.getParentKey key with
    | none => .ok []
    | some parent =>
      let ancestors ← self.getAncestorsLoop bound parent
      .ok (parent :: ancestors)

/-- `SectionsDAG::get_ancestors` — from the parent of a key up to the genesis key. -/
def getAncestors (self : SectionsDAG K) (key : K.PublicKey) : K.Result (List K.PublicKey) :=
  self.getAncestorsLoop (self.hashes.size + 1) key

def nonGenesisLeafNodes (self : SectionsDAG K) : List K.Node := K.merkle.read self.dag

def nonGenesisLeafSections (self : SectionsDAG K) : List (SectionInfo K.PublicKey K.Signature) :=
  (K.merkle.read self.dag).map fun node => node.value

/-- `SectionsDAG::leaf_keys` — the genesis key when there is no other. -/
def leafKeys (self : SectionsDAG K) : ExtTreeSet K.PublicKey :=
  let leafSections := self.nonGenesisLeafSections
  if leafSections.isEmpty then {self.genesisKey}
  else ExtTreeSet.ofList (leafSections.map fun info => info.key)

/-- `SectionsDAG::last_key` — the leaf of a DAG with a single branch. -/
def lastKey (self : SectionsDAG K) : K.Result K.PublicKey :=
  match self.leafKeys.toList with
  | [key] => .ok key
  | _ => .error .multipleBranchError

/-- `SectionsDAG::check_trust` — whether the genesis key is among the trusted keys. -/
def checkTrust (self : SectionsDAG K) (trustedKeys : List K.PublicKey) : Bool :=
  trustedKeys.any fun key => key == self.genesisKey

/-! ## Insertion -/

/-- Write a node for `key` over the given parent hashes and record its hash. -/
def applyChild (self : SectionsDAG K) (parent : ExtTreeSet K.Hash) (key : K.PublicKey)
    (signature : K.Signature) : SectionsDAG K :=
  let child : K.Node := ⟨parent, ⟨key, signature⟩⟩
  { self with
    hashes := self.hashes.insert key (K.merkle.hash child)
    dag := K.merkle.apply self.dag child }

/-- `SectionsDAG::insert_trusted_key` — no verification. -/
def insertTrustedKey (self : SectionsDAG K) (parentKey key : K.PublicKey)
    (signature : K.Signature) : K.Result (SectionsDAG K) :=
  if parentKey = self.genesisKey then
    .ok ({ self with dagRoot := self.dagRoot.insert key }.applyChild ∅ key signature)
  else
    match self.hashes[parentKey]? with
    | some hash => .ok (self.applyChild {hash} key signature)
    | none => .error (.keyNotFound parentKey)

/-- `SectionsDAG::verify_and_insert`. Both errors come before the first write, so that an
error leaves the DAG as it was. -/
def verifyAndInsert (self : SectionsDAG K) (parentKey key : K.PublicKey)
    (signature : K.Signature) : K.Result (SectionsDAG K) :=
  if K.verifySig parentKey key signature then self.insertTrustedKey parentKey key signature
  else .error .invalidSignature

def insertNode (self : SectionsDAG K) (parentKey : K.PublicKey) (node : K.Node) :
    K.Result (SectionsDAG K) :=
  self.verifyAndInsert parentKey node.value.key node.value.sig

/-! ## Partial DAGs -/

/-- The upward loop of `SectionsDAG::partial_dag`: the nodes from `node` up to, and without,
the one of `fromKey`. -/
def partialDagLoop (self : SectionsDAG K) (fromKey : K.PublicKey) :
    Nat → K.Node → K.Result (List K.Node)
  | 0, _ => .error .diverged
  | bound + 1, node =>
    if node.value.key = fromKey then .ok []
    else
      match self.parentNode (K.merkle.hash node) with
      | some parent => do
        let crdtOps ← self.partialDagLoop fromKey bound parent
        .ok (node :: crdtOps)
      | none =>
        -- The parent is the genesis key, which has no node.
        if fromKey = self.genesisKey then .ok [node] else .error .invalidBranch

/-- The downward loop of `SectionsDAG::partial_dag`: insert each node under the one before. -/
def insertBranch : SectionsDAG K → K.PublicKey → List K.Node → K.Result (SectionsDAG K)
  | self, _, [] => .ok self
  | self, parent, node :: rest => do
    let dag ← self.insertTrustedKey parent node.value.key node.value.sig
    insertBranch dag node.value.key rest

/-- `SectionsDAG::partial_dag` — the branch from one key down to another. -/
def partialDag (self : SectionsDAG K) (fromKey toKey : K.PublicKey) : K.Result (SectionsDAG K) :=
  if toKey = self.genesisKey then
    if fromKey ≠ self.genesisKey then .error .invalidBranch else .ok (new self.genesisKey)
  else do
    let node ← self.getNode toKey
    let crdtOps ← self.partialDagLoop fromKey ((K.merkle.allNodes self.dag).length + 1) node
    insertBranch (new fromKey) fromKey crdtOps.reverse

/-! ## Self verification -/

/-- The inner loop of `SectionsDAG::self_verify`: verify upwards until a verified parent. The
verified keys are those of earlier leaves and of this branch. -/
def selfVerifyLoop (self : SectionsDAG K) :
    Nat → ExtTreeSet K.PublicKey → K.PublicKey → Bool × ExtTreeSet K.PublicKey
  | 0, verifiedKeys, _ => (false, verifiedKeys)
  | bound + 1, verifiedKeys, key =>
    match self.getParentKey key, self.getNode key with
    | .ok (some parent), .ok node =>
      if K.verifySig parent key node.value.sig then
        let verifiedKeys := verifiedKeys.insert key
        if verifiedKeys.contains parent then (true, verifiedKeys)
        else self.selfVerifyLoop bound verifiedKeys parent
      else (false, verifiedKeys)
    | _, _ => (false, verifiedKeys)

/-- The outer loop of `SectionsDAG::self_verify`, which stops at the first failure. -/
def selfVerifyLeaves (self : SectionsDAG K) :
    ExtTreeSet K.PublicKey → List (SectionInfo K.PublicKey K.Signature) → Bool
  | _, [] => true
  | verifiedKeys, leaf :: rest =>
    match self.selfVerifyLoop (self.hashes.size + 1) verifiedKeys leaf.key with
    | (true, verifiedKeys) => self.selfVerifyLeaves verifiedKeys rest
    | (false, _) => false

/-- `SectionsDAG::self_verify` — every key is signed by its parent. -/
def selfVerify (self : SectionsDAG K) : Bool :=
  self.selfVerifyLeaves {self.genesisKey} self.nonGenesisLeafSections

/-! ## Merging -/

/-- The children of a node as entries of the work list of `SectionsDAG::merge`. -/
def childEntries (self : SectionsDAG K) (node : K.Node) : List (K.PublicKey × K.Node) :=
  (self.childNodes (K.merkle.hash node)).map fun child => (node.value.key, child)

def visits (self : SectionsDAG K) : Nat → K.PublicKey × K.Node → List (K.PublicKey × K.Node)
  | 0, _ => []
  | depth + 1, entry =>
    entry :: ((self.childEntries entry.2).reverse.flatMap (self.visits depth))

/-- The work list that `SectionsDAG::merge` starts with, its top first. -/
def rootEntries (self : SectionsDAG K) : K.Result (List (K.PublicKey × K.Node)) := do
  let entries ← self.dagRoot.toList.mapM fun key => do
    let node ← self.getNode key
    pure (self.genesisKey, node)
  .ok entries.reverse

/-- The entries that the work list visits in all; no path is longer than there are nodes. -/
def allVisits (self : SectionsDAG K) (entries : List (K.PublicKey × K.Node)) :
    List (K.PublicKey × K.Node) :=
  entries.flatMap (self.visits (K.merkle.allNodes self.dag).length)

/-- The work list loop of `SectionsDAG::merge`: insert the nodes of `other` into `self`. The
vector is a stack; its top is the head of the list. -/
def mergeLoop (other : SectionsDAG K) :
    Nat → List (K.PublicKey × K.Node) → SectionsDAG K → K.Result Unit × SectionsDAG K
  | _, [], self => (.ok (), self)
  | 0, _ :: _, self => (.error .diverged, self)
  | bound + 1, (parentKey, currentNode) :: needToVisit, self =>
    match self.insertNode parentKey currentNode with
    | .ok self => other.mergeLoop bound ((other.childEntries currentNode).reverse ++ needToVisit) self
    | .error error => (.error error, self)

/-- `SectionsDAG::merge` from the choice of the parent DAG on: insert `other` into `self`. -/
def mergeInto (self other : SectionsDAG K) : K.Result Unit × SectionsDAG K :=
  match other.rootEntries with
  | .ok needToVisit => other.mergeLoop (other.allVisits needToVisit).length needToVisit self
  | .error error => (.error error, self)

/-- `SectionsDAG::merge`. The second component is `self` after the call; an error may leave it
with some of the keys of `other`. -/
def merge (self other : SectionsDAG K) : K.Result Unit × SectionsDAG K :=
  if !other.selfVerify then
    (.error (.untrustedProofChain "Proof chain failed self verification"), self)
  else if self.hasKey other.genesisKey then self.mergeInto other
  else if other.hasKey self.genesisKey then other.mergeInto self
  else (.error (.keyNotFound self.genesisKey), self)

end SectionsDAG

end SafeNetwork
