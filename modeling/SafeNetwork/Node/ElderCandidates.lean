import SafeNetwork.NetworkKnowledge.Knowledge
import SafeNetwork.NetworkKnowledge.MemberDecisions

/-!
# Elder candidates

`node/membership/mod.rs` and `MyNode::best_elder_candidates_at_gen`: the oldest members of a section are
the candidates for its next elders. When both halves of the section have enough members, the section
splits and each half has candidates of its own. A session of distributed key generation is started for
the candidates, and its outcome is the SAP of the next section.
-/

namespace SafeNetwork

open Std

/-- `calc_age` — the last byte of a name. -/
def XorName.calcAge (self : XorName) : Nat :=
  (self.bits.drop 248).foldl (fun value bit => 2 * value + bit.toNat) 0

def NodeState.age {SocketAddr RelocationTrigger : Type}
    (self : NodeState SocketAddr RelocationTrigger) : Nat := self.name.calcAge

/-- `threshold` of a given group. -/
def threshold (groupSize : Nat) : Nat := groupSize * 2 / 3

/-- `supermajority` of a given group. -/
def supermajority (groupSize : Nat) : Nat := threshold groupSize + 1

structure DkgSessionId (N : NodeScheme) where
  /-- `prefix` of the session we are elder candidates for. -/
  sapPrefix : Prefix
  elders : ExtTreeMap XorName N.SocketAddr
  sectionChainLen : Nat
  bootstrapMembers : ExtTreeSet N.State
  membershipGen : UInt64

namespace DkgSessionId

variable {N : NodeScheme}

def elderIds (self : DkgSessionId N) : ExtTreeSet (NodeId N.SocketAddr) :=
  .ofList (self.elders.toList.map fun elder => NodeId.mk elder.1 elder.2)

end DkgSessionId

namespace NodeScheme

variable {N : NodeScheme}

def fromDkgSession (sessionId : DkgSessionId N) (pkSet : N.PublicKeySet) : N.sections.Sap :=
  ⟨sessionId.sapPrefix, pkSet, sessionId.elderIds, sessionId.bootstrapMembers, sessionId.membershipGen⟩

/-! ## Choosing candidates -/

/-- `cmp_elder_candidates` — the one comparing less wins: older nodes, then current elders, then by
name. -/
def cmpElderCandidates (currentElders : N.sections.Sap) (lhs rhs : N.State) : Ordering :=
  (compare rhs.age lhs.age).then <|
    (match containsElder currentElders lhs.name, containsElder currentElders rhs.name with
      | true, false => Ordering.lt
      | false, true => Ordering.gt
      | _, _ => Ordering.eq).then (compare lhs.name rhs.name)

/-- `elder_candidates` — the nodes that should be candidates to become the next elders. -/
def elderCandidates (candidates : List N.State) (currentElders : N.sections.Sap) :
    ExtTreeSet N.State :=
  .ofList ((candidates.insertionSort fun lhs rhs =>
    (cmpElderCandidates currentElders lhs rhs).isLE = true).take N.elderCount)

/-- `get_split_info` — the members of the two halves, when both are large enough. -/
def getSplitInfo (sapPrefix : Prefix) (members : N.Members) :
    Option (ExtTreeSet N.State × ExtTreeSet N.State) :=
  match partitionByPrefix sapPrefix members.keys with
  | none => none
  | some (zero, one) =>
    let splitThreshold := N.recommendedSectionSize
    if zero.size < splitThreshold ∨ one.size < splitThreshold then none
    else some (.ofList (zero.toList.filterMap (members[·]?)), .ofList (one.toList.filterMap (members[·]?)))

/-- The session of some candidates, of one section after a handover or of a half after a split. -/
def sessionOf (candidates : ExtTreeSet N.State) (sapPrefix : Prefix)
    (bootstrapMembers : ExtTreeSet N.State) (sectionChainLen : Nat) (membershipGen : UInt64) :
    DkgSessionId N where
  sapPrefix
  elders := .ofList (candidates.toList.map fun node => (node.name, node.addr))
  sectionChainLen
  bootstrapMembers
  membershipGen

/-- `try_split_dkg` — the sessions of the two halves, if we can split the section. -/
def trySplitDkg (members : N.Members) (sap : N.sections.Sap) (sectionChainLen : Nat)
    (membershipGen : UInt64) : Option (DkgSessionId N × DkgSessionId N) :=
  match getSplitInfo sap.sapPrefix members with
  | none => none
  | some (zero, one) =>
    let zeroElders := elderCandidates zero.toList sap
    let oneElders := elderCandidates one.toList sap
    some (sessionOf zeroElders (sap.sapPrefix.pushed false) zero sectionChainLen membershipGen,
      sessionOf oneElders (sap.sapPrefix.pushed true) one sectionChainLen membershipGen)

end NodeScheme

def NetworkKnowledge.bestElderCandidatesAtGen {N : NodeScheme} (self : NetworkKnowledge N.sections)
    (membershipGen : UInt64) : List (DkgSessionId N) :=
  let sap := self.signedSap.value
  let chainLen := self.sectionChain.keys.length
  let members := self.sectionMembers.membersAtGen membershipGen.toNat
  match NodeScheme.trySplitDkg members sap chainLen membershipGen with
  | some (zeroDkgId, oneDkgId) => [zeroDkgId, oneDkgId]
  | none =>
    let currentElders := sap.elders
    if N.elderCount ≤ currentElders.size then []
    else
      let candidates := NodeScheme.elderCandidates (members.toList.map (·.2)) sap
      if candidates.toList.map (·.nodeId) = currentElders.toList then []
      else if candidates.size < supermajority currentElders.size then []
      else if candidates.size < currentElders.size then []
      else [NodeScheme.sessionOf candidates sap.sapPrefix (.ofList (members.toList.map (·.2)))
        chainLen membershipGen]

namespace NodeScheme

variable {N : NodeScheme} {members : N.Members} {candidates : ExtTreeSet N.State}
  {sap : N.sections.Sap} {sapPrefix : Prefix} {node : N.State} {bootstrapMembers : ExtTreeSet N.State}
  {sectionChainLen : Nat} {membershipGen : UInt64}

/-! ## What is chosen -/

theorem mem_of_elderCandidates {among : List N.State} (chosen : node ∈ elderCandidates among sap) : node ∈ among := by
  rw [elderCandidates, ExtTreeSet.mem_ofList, List.contains_iff_mem] at chosen
  exact (List.mem_insertionSort _).mp (List.mem_of_mem_take chosen)

def Named (members : N.Members) : Prop :=
  ∀ (name : XorName) (member : N.State), members[name]? = some member → member.name = name

theorem named_membersAtGen (history : SectionMemberHistory N.sections) (gen : Nat) :
    Named (history.membersAtGen gen) := by
  have folded : ∀ (log : List (Decision N.sections)) (members : N.Members), Named members →
      Named (log.foldl applyDecision members) := by
    intro log
    induction log with
    | nil => exact fun _ named => named
    | cons decision rest ih =>
      intro members named
      refine ih _ fun name member found => ?_
      obtain old | ⟨_, _, same⟩ := of_foldl_applyState found
      · exact named name member old
      · exact same
  rw [SectionMemberHistory.membersAtGen]
  split
  · intro name member found
    simp at found
  · exact folded _ _ fun name member found => (mem_of_joinedMembers found).2.2

def NamesApart (states : ExtTreeSet N.State) : Prop :=
  ∀ one ∈ states, ∀ other ∈ states, one.name = other.name → one = other

theorem namesApart_of_members (members : N.Members) {states : ExtTreeSet N.State}
    (among : ∀ node : N.State, node ∈ states → members[node.name]? = some node) : NamesApart states := by
  intro one listed other listed' same
  have found := among one listed
  rw [same, among other listed'] at found
  exact (Option.some.inj found).symm

theorem Named.namesApart_elderCandidates (named : Named members) (sap : N.sections.Sap) :
    NamesApart (elderCandidates (members.toList.map (·.2)) sap) := by
  refine namesApart_of_members members fun node chosen => ?_
  obtain ⟨⟨name, member⟩, listed, rfl⟩ := List.mem_map.mp (mem_of_elderCandidates chosen)
  rw [ExtTreeMap.mem_toList_iff_getElem?_eq_some] at listed
  rw [named name member listed, listed]

theorem pairwise_names (apart : NamesApart candidates) :
    (candidates.toList.map fun node : N.State => (node.name, node.addr)).Pairwise
      fun one other => ¬ compare one.1 other.1 = .eq := by
  rw [List.pairwise_map]
  refine (ExtTreeSet.distinct_toList).imp_of_mem fun {one other} listed listed' differs same => ?_
  refine differs ?_
  rw [apart one (ExtTreeSet.mem_toList.mp listed) other (ExtTreeSet.mem_toList.mp listed')
    (Std.compare_eq_iff_eq.mp same)]
  exact Std.ReflCmp.compare_self

theorem getElem?_elders (apart : NamesApart candidates) {name : XorName} {addr : N.SocketAddr} :
    (sessionOf candidates sapPrefix bootstrapMembers sectionChainLen membershipGen).elders[name]? = some addr ↔
      ∃ node ∈ candidates, node.name = name ∧ node.addr = addr := by
  rw [sessionOf]
  constructor
  · intro found
    obtain ⟨node, chosen, same⟩ := List.mem_map.mp (OrderedMap.mem_of_getElem?_ofList found)
    exact ⟨node, ExtTreeSet.mem_toList.mp chosen, Prod.mk.inj same⟩
  · rintro ⟨node, chosen, rfl, rfl⟩
    refine ExtTreeMap.getElem?_ofList_of_mem ReflCmp.compare_self (pairwise_names apart) ?_
    exact List.mem_map.mpr ⟨node, ExtTreeSet.mem_toList.mpr chosen, rfl⟩

theorem mem_elderIds (apart : NamesApart candidates) {id : NodeId N.SocketAddr} :
    id ∈ (sessionOf candidates sapPrefix bootstrapMembers sectionChainLen membershipGen).elderIds ↔
      ∃ node ∈ candidates, node.nodeId = id := by
  rw [DkgSessionId.elderIds, ExtTreeSet.mem_ofList, List.contains_iff_mem, List.mem_map]
  constructor
  · rintro ⟨⟨name, addr⟩, listed, rfl⟩
    rw [ExtTreeMap.mem_toList_iff_getElem?_eq_some] at listed
    obtain ⟨node, chosen, rfl, rfl⟩ := (getElem?_elders apart).mp listed
    exact ⟨node, chosen, rfl⟩
  · rintro ⟨node, chosen, rfl⟩
    refine ⟨(node.name, node.addr), ?_, rfl⟩
    rw [ExtTreeMap.mem_toList_iff_getElem?_eq_some]
    exact (getElem?_elders apart).mpr ⟨node, chosen, rfl, rfl⟩

/-! ## Splits -/

theorem Named.mem_half (named : Named members) {half : ExtTreeSet XorName} (listed : node ∈ ExtTreeSet.ofList (half.toList.filterMap (members[·]?))) :
    members[node.name]? = some node ∧ node.name ∈ half := by
  rw [ExtTreeSet.mem_ofList, List.contains_iff_mem, List.mem_filterMap] at listed
  obtain ⟨name, among, found⟩ := listed
  rw [named name node found]
  exact ⟨found, ExtTreeSet.mem_toList.mp among⟩

end NodeScheme

end SafeNetwork
