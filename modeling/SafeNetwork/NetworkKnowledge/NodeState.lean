import SafeNetwork.NetworkKnowledge.SectionMemberHistory

/-!
# States of nodes

`node_state/mod.rs` and `node_id.rs`: a node is known by its name and its socket address, and its
state says whether it joined, left or was relocated. `validate_node_state` decides which changes a
section may vote on, from the members it has and the names it has archived.

A socket address and the trigger of a relocation are parameters. The trigger is itself a decision on
a node state, and no function modelled here looks into it.
-/

namespace SafeNetwork

open Std

/-- `NodeId` — the name and the address of a node. -/
structure NodeId (SocketAddr : Type) where
  name : XorName
  addr : SocketAddr
deriving DecidableEq

/-- `MembershipState` — a node's current section membership state. -/
inductive MembershipState (RelocationTrigger : Type) where
  | joined
  | left
  | relocated (trigger : RelocationTrigger)
deriving DecidableEq

/-- `NodeState` — information about a member of our section. -/
structure NodeState (SocketAddr RelocationTrigger : Type) where
  nodeId : NodeId SocketAddr
  state : MembershipState RelocationTrigger
  previousName : Option XorName
deriving DecidableEq

/-! ## Orders

The derived orders of the source compare field by field, and variants in the order they are listed
in. -/

section

variable {SocketAddr RelocationTrigger : Type} [Ord SocketAddr] [TransOrd SocketAddr]
  [LawfulEqOrd SocketAddr] [Ord RelocationTrigger] [TransOrd RelocationTrigger]
  [LawfulEqOrd RelocationTrigger]

instance : Ord (NodeId SocketAddr) := ⟨compareLex (compareOn NodeId.name) (compareOn NodeId.addr)⟩

instance : TransOrd (NodeId SocketAddr) :=
  inferInstanceAs (TransCmp (compareLex (compareOn NodeId.name) (compareOn NodeId.addr)))

instance : LawfulEqOrd (NodeId SocketAddr) where
  eq_of_compare := by
    rintro ⟨name, addr⟩ ⟨otherName, otherAddr⟩ same
    obtain ⟨names, addrs⟩ := compareLex_eq_eq.mp same
    obtain rfl : name = otherName := Std.compare_eq_iff_eq.mp names
    obtain rfl : addr = otherAddr := Std.compare_eq_iff_eq.mp addrs
    rfl

def MembershipState.ranked : MembershipState RelocationTrigger → Option (Option RelocationTrigger)
  | .joined => none
  | .left => some none
  | .relocated trigger => some (some trigger)

instance : Ord (MembershipState RelocationTrigger) := ⟨compareOn MembershipState.ranked⟩

instance : TransOrd (MembershipState RelocationTrigger) :=
  inferInstanceAs (TransCmp (compareOn MembershipState.ranked))

instance : LawfulEqOrd (MembershipState RelocationTrigger) where
  eq_of_compare := by
    intro one other same
    have ranks : one.ranked = other.ranked := Std.compare_eq_iff_eq.mp same
    cases one <;> cases other <;> simp_all [MembershipState.ranked]

instance : Ord (NodeState SocketAddr RelocationTrigger) :=
  ⟨compareLex (compareOn NodeState.nodeId)
    (compareLex (compareOn NodeState.state) (compareOn NodeState.previousName))⟩

instance : TransOrd (NodeState SocketAddr RelocationTrigger) :=
  inferInstanceAs (TransCmp (compareLex (compareOn NodeState.nodeId)
    (compareLex (compareOn NodeState.state) (compareOn NodeState.previousName))))

instance : LawfulEqOrd (NodeState SocketAddr RelocationTrigger) where
  eq_of_compare := by
    rintro ⟨nodeId, state, previous⟩ ⟨otherId, otherState, otherPrevious⟩ same
    obtain ⟨ids, rest⟩ := compareLex_eq_eq.mp same
    obtain ⟨states, names⟩ := compareLex_eq_eq.mp rest
    obtain rfl : nodeId = otherId := Std.compare_eq_iff_eq.mp ids
    obtain rfl : state = otherState := Std.compare_eq_iff_eq.mp states
    obtain rfl : previous = otherPrevious := Std.compare_eq_iff_eq.mp names
    rfl

end

/-- `matches!(state, MembershipState::Joined)`. -/
def MembershipState.isJoined {RelocationTrigger : Type} :
    MembershipState RelocationTrigger → Bool
  | .joined => true
  | .left => false
  | .relocated _ => false

@[simp] theorem MembershipState.isJoined_iff {RelocationTrigger : Type}
    {state : MembershipState RelocationTrigger} : state.isJoined = true ↔ state = .joined := by
  cases state <;> simp [isJoined]

namespace NodeState

variable {SocketAddr RelocationTrigger : Type}

def joined (nodeId : NodeId SocketAddr) (previousName : Option XorName) :
    NodeState SocketAddr RelocationTrigger := ⟨nodeId, .joined, previousName⟩

def left (nodeId : NodeId SocketAddr) (previousName : Option XorName) :
    NodeState SocketAddr RelocationTrigger := ⟨nodeId, .left, previousName⟩

def name (self : NodeState SocketAddr RelocationTrigger) : XorName := self.nodeId.name

def addr (self : NodeState SocketAddr RelocationTrigger) : SocketAddr := self.nodeId.addr

end NodeState

/-- What the members of a section use of the crates, beyond the keys, and the number of elders. -/
structure NodeScheme extends KeyScheme where
  PublicKeySet : Type
  SocketAddr : Type
  RelocationTrigger : Type
  [decidableEqSocketAddr : DecidableEq SocketAddr]
  [ordSocketAddr : Ord SocketAddr]
  [transOrdSocketAddr : TransOrd SocketAddr]
  [lawfulEqOrdSocketAddr : LawfulEqOrd SocketAddr]
  [decidableEqRelocationTrigger : DecidableEq RelocationTrigger]
  [ordRelocationTrigger : Ord RelocationTrigger]
  [transOrdRelocationTrigger : TransOrd RelocationTrigger]
  [lawfulEqOrdRelocationTrigger : LawfulEqOrd RelocationTrigger]
  publicKey : PublicKeySet → PublicKey
  serializeSap : SectionAuthorityProvider PublicKeySet (NodeId SocketAddr)
    (NodeState SocketAddr RelocationTrigger) → Option (List UInt8)
  /-- `bincode::serialize` of a node state. -/
  serializeNodeState : NodeState SocketAddr RelocationTrigger → Option (List UInt8)
  /-- `Prefix::common_prefix` with a name. -/
  commonPrefix : Prefix → XorName → Nat
  /-- `Prefix::cmp_distance` of two prefixes to a name. -/
  cmpDistance : Prefix → Prefix → XorName → Ordering
  /-- `elder_count` — what the environment sets, by default seven. -/
  elderCount : Nat

attribute [instance] NodeScheme.decidableEqSocketAddr NodeScheme.ordSocketAddr
  NodeScheme.transOrdSocketAddr NodeScheme.lawfulEqOrdSocketAddr
  NodeScheme.decidableEqRelocationTrigger NodeScheme.ordRelocationTrigger
  NodeScheme.transOrdRelocationTrigger NodeScheme.lawfulEqOrdRelocationTrigger

namespace NodeScheme

instance transOrdNodeId (N : NodeScheme) : TransOrd (SafeNetwork.NodeId N.SocketAddr) :=
  inferInstance

instance transOrdNodeState (N : NodeScheme) :
    TransOrd (SafeNetwork.NodeState N.SocketAddr N.RelocationTrigger) :=
  inferInstance

/-- `NodeState` of the scheme. -/
abbrev State (N : NodeScheme) : Type := SafeNetwork.NodeState N.SocketAddr N.RelocationTrigger

abbrev Members (N : NodeScheme) : Type := ExtTreeMap XorName N.State

/-- The scheme of the sections whose members the nodes are. -/
abbrev sections (N : NodeScheme) : SectionScheme where
  toKeyScheme := N.toKeyScheme
  PublicKeySet := N.PublicKeySet
  NodeId := SafeNetwork.NodeId N.SocketAddr
  NodeState := N.State
  publicKey := N.publicKey
  serializeSap := N.serializeSap
  serializeNodeState := N.serializeNodeState
  commonPrefix := N.commonPrefix
  cmpDistance := N.cmpDistance

def containsElder {N : NodeScheme} (sap : N.sections.Sap) (name : XorName) : Bool :=
  sap.elders.toList.any (·.name == name)

def recommendedSectionSize (N : NodeScheme) : Nat := 2 * N.elderCount

/-- The cap of `section_has_room_for_node`: a buffer for when nodes are joining sequentially. -/
def splitSectionSizeCap (N : NodeScheme) : Nat := N.recommendedSectionSize * 2

end NodeScheme

/-- What decisions on members use of the crates: a `NodeScheme` and the check of a decision. -/
structure MemberScheme extends NodeScheme where
  /-- `Decision::validate` against the key of a section. -/
  validate : PublicKey → Decision toNodeScheme.sections → Bool

/-! ## Room for a node -/

/-- `partition_by_prefix` — the names of the zero half and of the one half of a prefix; none when the
index of the next bit is no byte. -/
def partitionByPrefix (sapPrefix : Prefix) (nodes : List XorName) :
    Option (ExtTreeSet XorName × ExtTreeSet XorName) :=
  let decisionIndex := sapPrefix.bits.length
  if decisionIndex < 256 then
    let (one, zero) := (nodes.filter sapPrefix.matchesName).partition (·.bit decisionIndex)
    some (.ofList zero, .ofList one)
  else none

/-- The halves are the names that match the prefix with one more bit. -/
theorem partitionByPrefix_eq_some {sapPrefix : Prefix} {names : List XorName} {zero one : ExtTreeSet XorName} :
    partitionByPrefix sapPrefix names = some (zero, one) ↔ sapPrefix.bits.length < 256 ∧
      zero = .ofList (names.filter (sapPrefix.pushed false).matchesName) ∧
      one = .ofList (names.filter (sapPrefix.pushed true).matchesName) := by
  rw [partitionByPrefix]
  by_cases short : sapPrefix.bits.length < 256
  · have next : ∀ bit, names.filter (sapPrefix.pushed bit).matchesName =
        (names.filter sapPrefix.matchesName).filter (·.bit sapPrefix.bits.length == bit) := by
      intro bit
      rw [List.filter_filter]
      refine List.filter_congr fun name _ => ?_
      rw [Bool.eq_iff_iff, Prefix.matchesName_pushed short, Bool.and_eq_true, beq_iff_eq, and_comm]
    simp [short, List.partition_eq_filter_filter, next, Function.comp_def, eq_comm]
  · simp [short]

namespace NodeScheme

variable {N : NodeScheme} {self : N.State} {sapPrefix : Prefix} {members : N.Members}
  {archived : ExtTreeSet XorName}

def sectionHasRoomForNode (N : NodeScheme) (joiningNode : XorName) (sapPrefix : Prefix)
    (members : List XorName) : Bool :=
  match partitionByPrefix sapPrefix members with
  | some (zeros, ones) =>
    if joiningNode.bit sapPrefix.bits.length then ones.size < N.splitSectionSizeCap
    else zeros.size < N.splitSectionSizeCap
  | none => false

/-! ## Validation -/

def validateNodeState (self : N.State) (sapPrefix : Prefix) (currentJoinedMembers : N.Members)
    (archived : ExtTreeSet XorName) : N.Result Unit :=
  if !sapPrefix.matchesName self.name then .error .wrongSection
  else
    match self.state with
    | .joined =>
      if currentJoinedMembers.contains self.name then .error .existingMemberNameConflict
      else if !N.sectionHasRoomForNode self.name sapPrefix currentJoinedMembers.keys then
        .error .tryJoinLater
      else if currentJoinedMembers.toList.any (·.2.addr == self.addr) then
        .error .existingMemberSocketAddrConflict
      else if archived.contains self.name then .error .archivedNodeRejoined
      else .ok ()
    | .relocated _ => .ok ()
    | .left => if currentJoinedMembers.contains self.name then .ok () else .error .notAMember

/-- A join that is accepted: the name is ours and new, there is room for it, no member has its
address and it is not archived. -/
theorem validateNodeState_joined (joins : self.state = .joined) :
    validateNodeState self sapPrefix members archived = .ok () ↔
      sapPrefix.matchesName self.name = true ∧ self.name ∉ members ∧
        N.sectionHasRoomForNode self.name sapPrefix members.keys = true ∧
        (∀ (name : XorName) (member : N.State), members[name]? = some member → member.addr ≠ self.addr) ∧
        self.name ∉ archived := by
  have distinct : (members.toList.any (·.2.addr == self.addr)) = false ↔
      ∀ (name : XorName) (member : N.State), members[name]? = some member →
        member.addr ≠ self.addr := by
    simp only [List.any_eq_false, Prod.forall, ExtTreeMap.mem_toList_iff_getElem?_eq_some,
      beq_iff_eq, ne_eq]
  rw [← distinct, validateNodeState, joins]
  by_cases ours : sapPrefix.matchesName self.name = true
  · by_cases known : self.name ∈ members
    · simp [ours, known]
    · by_cases room : N.sectionHasRoomForNode self.name sapPrefix members.keys = true
      · cases members.toList.any (·.2.addr == self.addr) with
        | false => simp [ours, known, room]
        | true => simp [ours, known, room]
      · simp [ours, known, room]
  · simp [ours]

theorem validateNodeState_archived {other : ExtTreeSet XorName} (valid : validateNodeState self sapPrefix members archived = .ok ()) :
    validateNodeState self sapPrefix members other = .ok () ↔
      (self.state = .joined → self.name ∉ other) := by
  by_cases joins : self.state = .joined
  · obtain ⟨ours, new, room, alone, _⟩ := (validateNodeState_joined joins).mp valid
    rw [validateNodeState_joined joins]
    exact ⟨fun all _ => all.2.2.2.2, fun unknown => ⟨ours, new, room, alone, unknown joins⟩⟩
  · have same : validateNodeState self sapPrefix members other =
        validateNodeState self sapPrefix members archived := by
      unfold validateNodeState
      cases state : self.state with
      | joined => exact absurd state joins
      | left => rfl
      | relocated trigger => rfl
    simp [same, valid, joins]

end NodeScheme

end SafeNetwork
