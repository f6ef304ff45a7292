import SafeNetwork.Library.Ranking
import SafeNetwork.Node.ElderCandidates

/-!
# The sessions of a split

`try_split_dkg` starts one session for each half of a section. The members that match the prefix are
shared out by their next bit, and the elders of a half are the best of its members. The order that
decides is total on members with distinct names, so how the members are listed makes no difference.
-/

namespace SafeNetwork

open Std

namespace NodeScheme

variable {N : NodeScheme} {members : N.Members} {sap : N.sections.Sap} {one other : N.State} {candidates : List N.State}
  {node : N.State} {sapPrefix : Prefix}

/-! ## The order of candidates -/

/-- A node is preferred to another: it is older, or as old and a current elder while the other is not,
or as old and an elder like the other and its name is smaller. -/
def Preferred (sap : N.sections.Sap) (one other : N.State) : Prop :=
  other.age < one.age ∨ other.age = one.age ∧
    (containsElder sap one.name = true ∧ containsElder sap other.name = false ∨
      containsElder sap one.name = containsElder sap other.name ∧ compare one.name other.name = .lt)

theorem cmpElderCandidates_eq_lt : cmpElderCandidates sap one other = .lt ↔ Preferred sap one other := by
  unfold cmpElderCandidates Preferred
  rw [Ordering.then_eq_lt, Nat.compare_eq_lt, Nat.compare_eq_eq, Ordering.then_eq_lt]
  cases containsElder sap one.name <;> cases containsElder sap other.name <;> simp

instance : TransCmp (cmpElderCandidates sap) := by
  have same : cmpElderCandidates sap = compareLex (fun one other => compare other.age one.age)
      (compareLex (compareOn fun node => !containsElder sap node.name) (compareOn NodeState.name)) := by
    funext one other
    unfold cmpElderCandidates compareLex compareOn
    dsimp only
    cases containsElder sap one.name <;> cases containsElder sap other.name <;> rfl
  have : TransCmp fun one other : N.State => compare other.age one.age :=
    inferInstanceAs (TransCmp fun one other : N.State => compareOn NodeState.age other one)
  rw [same]
  infer_instance

theorem name_eq_of_cmpElderCandidates (same : cmpElderCandidates sap one other = .eq) : one.name = other.name := by
  rw [cmpElderCandidates, Ordering.then_eq_eq, Ordering.then_eq_eq] at same
  exact Std.compare_eq_iff_eq.mp same.2.2

/-! ## The best of some candidates -/

abbrev ranked (candidates : List N.State) (sap : N.sections.Sap) : List N.State :=
  candidates.insertionSort fun one other => (cmpElderCandidates sap one other).isLE = true

theorem pairwise_ranked (apart : (candidates.map NodeState.name).Nodup)
    (sap : N.sections.Sap) : (ranked candidates sap).Pairwise (Preferred sap) := by
  have : Std.Total fun one other : N.State => (cmpElderCandidates sap one other).isLE = true :=
    ⟨fun one other => by simpa using Ranking.isLE_or_isLE (cmpElderCandidates sap) one other⟩
  have : IsTrans N.State fun one other => (cmpElderCandidates sap one other).isLE = true :=
    ⟨fun _ _ _ => TransCmp.isLE_trans⟩
  have distinct : (ranked candidates sap).Pairwise fun one other => one.name ≠ other.name :=
    List.pairwise_map.mp (((List.perm_insertionSort _ candidates).map NodeState.name).nodup_iff.mpr apart)
  refine (Ranking.pairwise_lt (List.pairwise_insertionSort _ candidates)
    (distinct.imp fun differ same => differ (name_eq_of_cmpElderCandidates same))).imp ?_
  exact fun less => cmpElderCandidates_eq_lt.mp less

theorem elderCandidates_perm {order : List N.State} (perm : order.Perm candidates)
    (apart : (candidates.map NodeState.name).Nodup) (sap : N.sections.Sap) :
    elderCandidates order sap = elderCandidates candidates sap := by
  have same : ranked order sap = ranked candidates sap := by
    refine List.Perm.eq_of_pairwise (fun one other _ _ less less' => ?_)
      (pairwise_ranked ((perm.map _).nodup_iff.mpr apart) sap) (pairwise_ranked apart sap)
      (((List.perm_insertionSort _ _).trans perm).trans (List.perm_insertionSort _ _).symm)
    rw [← cmpElderCandidates_eq_lt] at less less'
    cases less'.symm.trans (OrientedCmp.gt_of_lt less)
  exact congrArg (fun list => ExtTreeSet.ofList (list.take N.elderCount)) same

theorem mem_elderCandidates :
    node ∈ elderCandidates candidates sap ↔ node ∈ (ranked candidates sap).take N.elderCount := by
  rw [elderCandidates, ExtTreeSet.mem_ofList, List.contains_iff_mem]

/-! ## The halves -/

def namesOf (members : N.Members) (sapPrefix : Prefix) : List XorName :=
  members.keys.filter sapPrefix.matchesName

def half (members : N.Members) (sapPrefix : Prefix) : ExtTreeSet N.State :=
  .ofList ((ExtTreeSet.ofList (namesOf members sapPrefix)).toList.filterMap (members[·]?))

theorem partitionByPrefix_eq (short : sapPrefix.bits.length < 256) :
    partitionByPrefix sapPrefix members.keys = some (.ofList (namesOf members (sapPrefix.pushed false)),
      .ofList (namesOf members (sapPrefix.pushed true))) :=
  partitionByPrefix_eq_some.mpr ⟨short, rfl, rfl⟩

theorem nodup_namesOf (sapPrefix : Prefix) : (namesOf members sapPrefix).Nodup := by
  refine List.Nodup.filter _ (ExtTreeMap.distinct_keys.imp fun differs same => differs ?_)
  rw [same]
  exact ReflCmp.compare_self

theorem size_ofList_namesOf (sapPrefix : Prefix) :
    (ExtTreeSet.ofList (namesOf members sapPrefix)).size = (namesOf members sapPrefix).length :=
  ExtTreeSet.size_ofList ((nodup_namesOf sapPrefix).imp fun differs same =>
    differs (Std.compare_eq_iff_eq.mp same))

theorem mem_of_namesOf {name : XorName}
    (listed : name ∈ ExtTreeSet.ofList (namesOf members sapPrefix)) : name ∈ members := by
  rw [ExtTreeSet.mem_ofList, List.contains_iff_mem, namesOf, List.mem_filter] at listed
  exact ExtTreeMap.mem_keys.mp listed.1

theorem Named.mem_half_iff (named : Named members) : node ∈ half members sapPrefix ↔
      members[node.name]? = some node ∧ sapPrefix.matchesName node.name = true := by
  have listed : node.name ∈ ExtTreeSet.ofList (namesOf members sapPrefix) ↔
      node.name ∈ members ∧ sapPrefix.matchesName node.name = true := by
    rw [ExtTreeSet.mem_ofList, List.contains_iff_mem, namesOf, List.mem_filter, ExtTreeMap.mem_keys]
  constructor
  · intro inside
    obtain ⟨found, name⟩ := named.mem_half inside
    exact ⟨found, (listed.mp name).2⟩
  · rintro ⟨found, matching⟩
    rw [half, ExtTreeSet.mem_ofList, List.contains_iff_mem, List.mem_filterMap]
    refine ⟨node.name, ExtTreeSet.mem_toList.mpr (listed.mpr ⟨?_, matching⟩), found⟩
    rw [ExtTreeMap.mem_iff_isSome_getElem?, found]
    rfl

theorem Named.namesApart_half (named : Named members) (sapPrefix : Prefix) : NamesApart (half members sapPrefix) :=
  namesApart_of_members members fun _ listed => (named.mem_half_iff.mp listed).1

theorem Named.size_half (named : Named members) (sapPrefix : Prefix) :
    (half members sapPrefix).size = (namesOf members sapPrefix).length := by
  rw [← size_ofList_namesOf]
  generalize names : ExtTreeSet.ofList (namesOf members sapPrefix) = listed
  have known : ∀ name ∈ listed.toList, name ∈ members := fun name inside =>
    mem_of_namesOf (names ▸ ExtTreeSet.mem_toList.mp inside)
  have mapped : (listed.toList.filterMap (members[·]?)).map NodeState.name = listed.toList := by
    rw [List.map_filterMap]
    refine (List.filterMap_congr fun name inside => ?_).trans List.filterMap_some
    obtain ⟨member, found⟩ := Option.isSome_iff_exists.mp
      (ExtTreeMap.mem_iff_isSome_getElem?.mp (known name inside))
    rw [found, Option.map_some, named name member found]
  have distinct : ((listed.toList.filterMap (members[·]?)).map NodeState.name).Pairwise
      fun one other => ¬ compare one other = .eq := by
    rw [mapped]
    exact ExtTreeSet.distinct_toList
  have count := congrArg List.length mapped
  rw [List.length_map, ExtTreeSet.length_toList] at count
  rw [half, names, ExtTreeSet.size_ofList, count]
  refine (List.pairwise_map.mp distinct).imp fun differs same => differs ?_
  rw [Std.compare_eq_iff_eq.mp same]
  exact ReflCmp.compare_self

/-! ## The sessions -/

/-- What is to be the session of the half of a section with some next bit: its members are those of
the section that match the prefix of the half, there are enough of them, and its elders are the best of
them, as many as there are to be, however they are listed. -/
structure IsHalf (members : N.Members) (sap : N.sections.Sap) (bit : Bool) (session : DkgSessionId N) :
    Prop where
  sapPrefix_eq : session.sapPrefix = sap.sapPrefix.pushed bit
  mem_iff : ∀ node : N.State, node ∈ session.bootstrapMembers ↔
    members[node.name]? = some node ∧ session.sapPrefix.matchesName node.name = true
  large : N.recommendedSectionSize ≤ session.bootstrapMembers.size
  elders_among : ∀ name addr, session.elders[name]? = some addr →
    ∃ node ∈ session.bootstrapMembers, node.name = name ∧ node.addr = addr
  size_elders : session.elders.size = min N.elderCount session.bootstrapMembers.size
  preferred : ∀ node ∈ session.bootstrapMembers, ∀ other ∈ session.bootstrapMembers,
    node.name ∈ session.elders → other.name ∉ session.elders → Preferred sap node other
  any_order : ∀ order : List N.State, order.Perm session.bootstrapMembers.toList →
    session = sessionOf (elderCandidates order sap) session.sapPrefix session.bootstrapMembers
      session.sectionChainLen session.membershipGen

section Elders

variable {among : ExtTreeSet N.State} (apart : NamesApart among)

include apart

theorem NamesApart.nodup_names : (among.toList.map NodeState.name).Nodup := by
  refine List.pairwise_map.mpr (ExtTreeSet.distinct_toList.imp_of_mem fun {one other} mem mem' differs same => ?_)
  refine differs ?_
  rw [apart one (ExtTreeSet.mem_toList.mp mem) other (ExtTreeSet.mem_toList.mp mem') same]
  exact ReflCmp.compare_self

theorem NamesApart.elderCandidates (sap : N.sections.Sap) :
    NamesApart (elderCandidates among.toList sap) := fun one chosen other chosen' =>
  apart one (ExtTreeSet.mem_toList.mp (mem_of_elderCandidates chosen)) other
    (ExtTreeSet.mem_toList.mp (mem_of_elderCandidates chosen'))

theorem NamesApart.size_elderCandidates (sap : N.sections.Sap) :
    (NodeScheme.elderCandidates among.toList sap).size = min N.elderCount among.size := by
  have sorted := (pairwise_ranked apart.nodup_names sap).sublist (List.take_sublist N.elderCount _)
  rw [NodeScheme.elderCandidates, ExtTreeSet.size_ofList, List.length_take, List.length_insertionSort,
    ExtTreeSet.length_toList]
  refine sorted.imp fun {one other} less same => ?_
  rw [Std.compare_eq_iff_eq.mp same, ← cmpElderCandidates_eq_lt] at less
  cases less.symm.trans ReflCmp.compare_self

theorem NamesApart.preferred {sap : N.sections.Sap} {node other : N.State}
    (chosen : node ∈ NodeScheme.elderCandidates among.toList sap) (listed : other ∈ among)
    (left : other ∉ NodeScheme.elderCandidates among.toList sap) : Preferred sap node other := by
  rw [mem_elderCandidates] at chosen left
  exact Ranking.rel_of_take (pairwise_ranked apart.nodup_names sap) chosen
    ((List.mem_insertionSort _).mpr (ExtTreeSet.mem_toList.mpr listed)) left

end Elders

def halfSession (members : N.Members) (sap : N.sections.Sap) (sectionChainLen : Nat)
    (membershipGen : UInt64) (bit : Bool) : DkgSessionId N :=
  let sapPrefix := sap.sapPrefix.pushed bit
  sessionOf (elderCandidates (half members sapPrefix).toList sap) sapPrefix (half members sapPrefix)
    sectionChainLen membershipGen

variable {sectionChainLen : Nat} {membershipGen : UInt64} {bit : Bool}

theorem Named.mem_elders (named : Named members) (inside : node ∈ half members (sap.sapPrefix.pushed bit)) :
    node.name ∈ (halfSession members sap sectionChainLen membershipGen bit).elders ↔
      node ∈ elderCandidates (half members (sap.sapPrefix.pushed bit)).toList sap := by
  have apart := named.namesApart_half (sap.sapPrefix.pushed bit)
  rw [ExtTreeMap.mem_iff_isSome_getElem?, Option.isSome_iff_exists]
  constructor
  · rintro ⟨addr, found⟩
    obtain ⟨chosen, picked, same, _⟩ := (getElem?_elders (apart.elderCandidates sap)).mp found
    rwa [← apart chosen (ExtTreeSet.mem_toList.mp (mem_of_elderCandidates picked)) node inside same]
  · intro picked
    exact ⟨node.addr, (getElem?_elders (apart.elderCandidates sap)).mpr ⟨node, picked, rfl, rfl⟩⟩

theorem Named.isHalf (named : Named members)
    (large : N.recommendedSectionSize ≤ (namesOf members (sap.sapPrefix.pushed bit)).length) :
    IsHalf members sap bit (halfSession members sap sectionChainLen membershipGen bit) := by
  have apart := named.namesApart_half (sap.sapPrefix.pushed bit)
  have chosenApart := apart.elderCandidates sap
  refine ⟨rfl, fun node => named.mem_half_iff, ?_, fun name addr found => ?_, ?_, ?_, fun order perm => ?_⟩
  · exact (named.size_half _).symm ▸ large
  · obtain ⟨node, picked, same⟩ := (getElem?_elders chosenApart).mp found
    exact ⟨node, ExtTreeSet.mem_toList.mp (mem_of_elderCandidates picked), same⟩
  · refine (ExtTreeMap.size_ofList (pairwise_names chosenApart)).trans ?_
    rw [List.length_map, ExtTreeSet.length_toList]
    exact apart.size_elderCandidates sap
  · intro node inside other inside' isElder notElder
    exact apart.preferred ((named.mem_elders inside).mp isElder) inside'
      (mt (named.mem_elders inside').mpr notElder)
  · rw [elderCandidates_perm perm apart.nodup_names]
    rfl

theorem trySplitDkg_eq (short : sap.sapPrefix.bits.length < 256) :
    trySplitDkg members sap sectionChainLen membershipGen =
      if ∃ bit, (namesOf members (sap.sapPrefix.pushed bit)).length < N.recommendedSectionSize then none
      else some (halfSession members sap sectionChainLen membershipGen false,
        halfSession members sap sectionChainLen membershipGen true) := by
  rw [trySplitDkg, getSplitInfo, partitionByPrefix_eq short]
  simp only [size_ofList_namesOf, Bool.exists_bool]
  by_cases small : (namesOf members (sap.sapPrefix.pushed false)).length < N.recommendedSectionSize ∨
      (namesOf members (sap.sapPrefix.pushed true)).length < N.recommendedSectionSize
  · rw [if_pos small, if_pos small]
  · rw [if_neg small, if_neg small]
    rfl

/-- A split shares out the members that match the prefix by their next bit, and the session of each half
is as it is to be. There is none exactly when a half is too small or the prefix has every bit of a
name, and the names of the halves are names of members. -/
theorem trySplitDkg_of_named (named : Named members) (sap : N.sections.Sap) (sectionChainLen : Nat)
    (membershipGen : UInt64) :
    (∀ zeroId oneId, trySplitDkg members sap sectionChainLen membershipGen = some (zeroId, oneId) →
      IsHalf members sap false zeroId ∧ IsHalf members sap true oneId ∧
      (∀ node ∈ zeroId.bootstrapMembers, node ∉ oneId.bootstrapMembers) ∧
      ∀ node : N.State, node ∈ zeroId.bootstrapMembers ∨ node ∈ oneId.bootstrapMembers ↔
        members[node.name]? = some node ∧ sap.sapPrefix.matchesName node.name = true) ∧
    (trySplitDkg members sap sectionChainLen membershipGen = none ↔ 256 ≤ sap.sapPrefix.bits.length ∨
      ∃ bit, (namesOf members (sap.sapPrefix.pushed bit)).length < N.recommendedSectionSize) ∧
    ∀ zero one, partitionByPrefix sap.sapPrefix members.keys = some (zero, one) →
      ∀ name, name ∈ zero ∨ name ∈ one → name ∈ members := by
  by_cases short : sap.sapPrefix.bits.length < 256
  · rw [trySplitDkg_eq short, partitionByPrefix_eq short]
    refine ⟨fun zeroId oneId splits => ?_, ?_, ?_⟩
    · rw [Option.ite_none_left_eq_some] at splits
      obtain ⟨large, both⟩ := splits
      simp only [not_exists, Nat.not_lt] at large
      obtain ⟨rfl, rfl⟩ := Prod.mk.inj (Option.some.inj both)
      refine ⟨named.isHalf (large false), named.isHalf (large true), fun node zero one => ?_, fun node => ?_⟩
      · have first := (Prefix.matchesName_pushed short).mp (named.mem_half_iff.mp zero).2
        have second := (Prefix.matchesName_pushed short).mp (named.mem_half_iff.mp one).2
        cases first.2.symm.trans second.2
      · refine (or_congr named.mem_half_iff named.mem_half_iff).trans ?_
        rw [Prefix.matchesName_pushed short, Prefix.matchesName_pushed short]
        cases node.name.bit sap.sapPrefix.bits.length <;> simp
    · rw [ite_eq_left_iff]
      simp only [reduceCtorEq, imp_false, not_not, Nat.not_le.mpr short, false_or]
    · rintro zero one halves name listed
      obtain ⟨rfl, rfl⟩ := Prod.mk.inj (Option.some.inj halves)
      exact listed.elim mem_of_namesOf mem_of_namesOf
  · have unextended : partitionByPrefix sap.sapPrefix members.keys = none := by
      simp [partitionByPrefix, short]
    have unsplit : trySplitDkg members sap sectionChainLen membershipGen = none := by
      rw [trySplitDkg, getSplitInfo, unextended]
    simp [unextended, unsplit, Nat.not_lt.mp short]

/-- The sessions of a split: each is one of candidates with distinct names, whose next bit is that of
the half. -/
theorem Named.of_trySplitDkg (named : Named members) {sectionChainLen : Nat} {membershipGen : UInt64}
    {zeroId oneId : DkgSessionId N}
    (splits : trySplitDkg members sap sectionChainLen membershipGen = some (zeroId, oneId)) :
    zeroId.sapPrefix = sap.sapPrefix.pushed false ∧ oneId.sapPrefix = sap.sapPrefix.pushed true ∧
      (∀ id : NodeId N.SocketAddr, id ∈ zeroId.elderIds → id.name.bit sap.sapPrefix.bits.length = false) ∧
      ∀ id : NodeId N.SocketAddr, id ∈ oneId.elderIds → id.name.bit sap.sapPrefix.bits.length = true := by
  have short : sap.sapPrefix.bits.length < 256 := by
    by_contra long
    rw [trySplitDkg, getSplitInfo, partitionByPrefix, if_neg long] at splits
    cases splits
  -- An elder of a half is one of its members.
  have next : ∀ bit (id : NodeId N.SocketAddr),
      id ∈ (halfSession members sap sectionChainLen membershipGen bit).elderIds →
      id.name.bit sap.sapPrefix.bits.length = bit := by
    intro bit id listed
    have apart := named.namesApart_half (sap.sapPrefix.pushed bit)
    obtain ⟨node, picked, rfl⟩ := (mem_elderIds (apart.elderCandidates sap)).mp listed
    have inside := named.mem_half_iff.mp (ExtTreeSet.mem_toList.mp (mem_of_elderCandidates picked))
    exact ((Prefix.matchesName_pushed short).mp inside.2).2
  rw [trySplitDkg_eq short, Option.ite_none_left_eq_some] at splits
  obtain ⟨rfl, rfl⟩ := Prod.mk.inj (Option.some.inj splits.2)
  exact ⟨rfl, rfl, next false, next true⟩

def sampleSplitMembers : sampleNodeScheme.Members :=
  .ofList ([[false, false], [false, true], [true, false], [true, true]].map fun bits =>
    (sampleNodeName bits, NodeState.joined (sampleNodeId bits 0) none))

theorem named_sampleSplitMembers : Named sampleSplitMembers := by
  intro name member found
  obtain ⟨bits, _, same⟩ := List.mem_map.mp (OrderedMap.mem_of_getElem?_ofList found)
  obtain ⟨rfl, rfl⟩ := Prod.mk.inj same
  rfl

theorem trySplitDkg_sampleSplitMembers : Named sampleSplitMembers ∧ ∃ zeroId oneId,
      trySplitDkg sampleSplitMembers ⟨default, (0 : Nat), ∅, ∅, 0⟩ 1 1 = some (zeroId, oneId) ∧
      IsHalf sampleSplitMembers ⟨default, (0 : Nat), ∅, ∅, 0⟩ false zeroId ∧
      IsHalf sampleSplitMembers ⟨default, (0 : Nat), ∅, ∅, 0⟩ true oneId := by
  have splits : (trySplitDkg sampleSplitMembers ⟨default, (0 : Nat), ∅, ∅, 0⟩ 1 1).isSome = true := by
    decide +kernel
  obtain ⟨⟨zeroId, oneId⟩, both⟩ := Option.isSome_iff_exists.mp splits
  have halves := (trySplitDkg_of_named named_sampleSplitMembers _ _ _).1 zeroId oneId both
  exact ⟨named_sampleSplitMembers, zeroId, oneId, both, halves.1, halves.2.1⟩

end NodeScheme

end SafeNetwork
