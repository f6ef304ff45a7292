import SafeNetwork.Library.Ranking
import SafeNetwork.Node.Elder
import SafeNetwork.Node.ElderCandidates

/-!
# Nodes to relocate

`node/relocation.rs`: after a churn event some adults move to another section. They are those of the
oldest that pass the check against the churn event, and of these the closest ones to the hash of its id.
A section that is not larger than recommended keeps its members, and a larger one does not fall below
that size.
-/

namespace SafeNetwork

open Std

/-- `XorName` as its bytes. -/
def XorName.toBytes (self : XorName) : List UInt8 :=
  (List.range 32).map fun index =>
    UInt8.ofNat (((self.bits.drop (8 * index)).take 8).foldl (fun value bit => 2 * value + bit.toNat) 0)

/-- `XorName::cmp_distance` — compares the distances of two names to this one. -/
def XorName.cmpDistance (self lhs rhs : XorName) : Ordering :=
  compare (self.bits.zipWith xor lhs.bits) (self.bits.zipWith xor rhs.bits)

instance (self : XorName) : TransCmp self.cmpDistance :=
  inferInstanceAs (TransCmp (compareOn fun name : XorName => self.bits.zipWith xor name.bits))

theorem XorName.eq_of_cmpDistance {self lhs rhs : XorName} (same : self.cmpDistance lhs rhs = .eq) : lhs = rhs := by
  have cancel : ∀ target left right : List Bool, left.length = target.length →
      right.length = target.length → target.zipWith xor left = target.zipWith xor right → left = right := by
    intro target
    induction target with
    | nil => intro left right none none' _; rw [List.length_eq_zero_iff.mp none, List.length_eq_zero_iff.mp none']
    | cons bit rest ih =>
      rintro (_ | ⟨one, left⟩) (_ | ⟨other, right⟩) size size' equal
      · rfl
      · cases size
      · cases size'
      · obtain ⟨first, others⟩ := List.cons.inj equal
        rw [Bool.xor_right_inj.mp first, ih left right (Nat.succ.inj size) (Nat.succ.inj size') others]
  obtain ⟨left, size⟩ := lhs
  obtain ⟨right, size'⟩ := rhs
  obtain rfl : left = right := cancel self.bits left right (size.trans self.length_eq.symm)
    (size'.trans self.length_eq.symm) (Std.compare_eq_iff_eq.mp same)
  rfl

/-- `u8::trailing_zeros`. -/
def trailingZerosOfByte (byte : UInt8) : Nat := (List.range 8).findIdx byte.toNat.testBit

/-- `trailing_zeros` of the bytes in reverse: a byte that is not zero ends the loop. -/
def trailingZerosRev : List UInt8 → Nat
  | [] => 0
  | byte :: rest => if byte = 0 then 8 + trailingZerosRev rest else trailingZerosOfByte byte

def trailingZeros (bytes : List UInt8) : Nat := trailingZerosRev bytes.reverse

/-- `relocation_check` — whether a member with the given age is a candidate for relocation. -/
def relocationCheck (age : Nat) (churnId : List UInt8) : Bool := trailingZeros churnId ≥ age

/-! ## What the relocation check counts -/

/-- The number whose big-endian bytes are given. -/
def bigEndian (bytes : List UInt8) : Nat := Nat.ofDigits 256 (bytes.reverse.map UInt8.toNat)

theorem trailingZerosOfByte_spec : ∀ byte : UInt8, byte ≠ 0 → trailingZerosOfByte byte < 8 ∧
    2 ^ trailingZerosOfByte byte ∣ byte.toNat ∧ ¬ 2 ^ (trailingZerosOfByte byte + 1) ∣ byte.toNat := by
  have words : ∀ bits : BitVec 8, bits ≠ 0 → trailingZerosOfByte ⟨bits⟩ < 8 ∧
      2 ^ trailingZerosOfByte ⟨bits⟩ ∣ bits.toNat ∧ ¬ 2 ^ (trailingZerosOfByte ⟨bits⟩ + 1) ∣ bits.toNat := by
    decide +kernel
  intro byte nonzero
  exact words byte.toBitVec fun zero => nonzero (UInt8.toBitVec_inj.mp zero)

/-- A byte that is not zero decides alone, since what is before it is a multiple of `2 ^ 8`. -/
theorem padicValNat_byte {byte : UInt8} {rest : Nat} (nonzero : byte ≠ 0) (positive : byte.toNat + 256 * rest ≠ 0) :
    padicValNat 2 (byte.toNat + 256 * rest) = trailingZerosOfByte byte := by
  obtain ⟨small, divides, exact⟩ := trailingZerosOfByte_spec byte nonzero
  have before : ∀ count ≤ 8, 2 ^ count ∣ 256 * rest := by
    intro count few
    have power : 2 ^ count ∣ 256 := pow_dvd_pow 2 few
    exact power.trans (Nat.dvd_mul_right 256 rest)
  apply Nat.le_antisymm
  · by_contra more
    have all : 2 ^ (trailingZerosOfByte byte + 1) ∣ byte.toNat + 256 * rest :=
      (padicValNat_dvd_iff_le positive).mpr (Nat.lt_of_not_le more)
    exact exact ((Nat.dvd_add_left (before _ small)).mp all)
  · exact (padicValNat_dvd_iff_le positive).mp (Nat.dvd_add divides (before _ small.le))

theorem trailingZerosRev_eq (bytes : List UInt8) :
    trailingZerosRev bytes = if Nat.ofDigits 256 (bytes.map UInt8.toNat) = 0 then 8 * bytes.length
      else padicValNat 2 (Nat.ofDigits 256 (bytes.map UInt8.toNat)) := by
  induction bytes with
  | nil => simp [trailingZerosRev]
  | cons byte rest ih =>
    rw [trailingZerosRev, List.map_cons, Nat.ofDigits_cons, List.length_cons]
    generalize Nat.ofDigits 256 (rest.map UInt8.toNat) = value at ih ⊢
    by_cases zero : byte = 0
    · subst zero
      rw [if_pos rfl, ih]
      by_cases none : value = 0
      · simp [none]
        omega
      · have power : padicValNat 2 256 = 8 := padicValNat.prime_pow 8
        have shifted : padicValNat 2 (256 * value) = 8 + padicValNat 2 value := by
          rw [padicValNat.mul (by decide) none, power]
        simp [none, shifted]
    · have nonzero : byte.toNat + 256 * value ≠ 0 := by
        intro none
        have last : byte.toNat = 0 := by omega
        exact zero (UInt8.toNat_inj.mp last)
      rw [if_neg zero, if_neg nonzero, padicValNat_byte zero nonzero]

/-- A member of an age passes the check exactly if the churn id, as a number, is divisible by `2 ^ age`, or is
zero and has that many bits. The zeros that are counted are the exponent of two, and all bits for zero. -/
theorem relocationCheck_iff (age : UInt8) (churnId : List UInt8) :
    (relocationCheck age.toNat churnId = true ↔ bigEndian churnId ≠ 0 ∧ 2 ^ age.toNat ∣ bigEndian churnId ∨
      bigEndian churnId = 0 ∧ age.toNat ≤ 8 * churnId.length) ∧
    trailingZeros churnId =
      if bigEndian churnId = 0 then 8 * churnId.length else padicValNat 2 (bigEndian churnId) := by
  have counted : trailingZeros churnId =
      if bigEndian churnId = 0 then 8 * churnId.length else padicValNat 2 (bigEndian churnId) := by
    rw [trailingZeros, trailingZerosRev_eq, List.length_reverse, bigEndian]
  refine ⟨?_, counted⟩
  rw [relocationCheck, decide_eq_true_iff, counted]
  by_cases zero : bigEndian churnId = 0
  · simp [zero]
  · simp [zero, padicValNat_dvd_iff_le zero]

/-! ## Relocated nodes -/

/-- What relocation uses of the crates: the bytes of signatures (`blsttc`) and the hashes of
`xor_name`. -/
structure RelocationScheme (M : MemberScheme) where
  signatureBytes : M.Signature → List UInt8
  fromContent : List UInt8 → XorName
  fromContentParts : List (List UInt8) → XorName

namespace RelocationScheme

variable {M : MemberScheme}

/-- `RelocationTrigger::churn_id` of the decision that the trigger holds. -/
def churnId (R : RelocationScheme M) (relocationTrigger : Decision M.sections) : XorName :=
  R.fromContentParts (relocationTrigger.proposals.values.map R.signatureBytes)

end RelocationScheme

namespace NetworkKnowledge

variable {M : MemberScheme} (R : RelocationScheme M) (self : NetworkKnowledge M.sections)
  (relocationTrigger : Decision M.sections) (excluded : ExtTreeSet XorName)

instance transOrdAdult (M : MemberScheme) : TransOrd (NodeId M.SocketAddr) := inferInstance

/-- `NetworkKnowledge::adults` — live adults from our section. -/
def adults : ExtTreeSet (NodeId M.SocketAddr) :=
  .ofList ((self.sectionMembers.members.toList.filter fun node => !self.isElder node.name).map (·.nodeId))

def isAdult (name : XorName) : Bool := self.adults.toList.any (·.name == name)

/-- The members that pass the relocation check, by their distance to the hash of the churn id. -/
def relocationCandidates : List M.State :=
  let churnId := R.churnId relocationTrigger
  let candidates := ((self.sectionMembers.members.toList.filter fun state =>
    self.isAdult state.name).filter fun info => relocationCheck info.age churnId.toBytes).filter
      fun info => !excluded.contains info.name
  let targetName := R.fromContent churnId.toBytes
  candidates.mergeSort fun lhs rhs => (targetName.cmpDistance lhs.name rhs.name).isLE

def findNodesToRelocate : List M.State :=
  let sectionSize := self.sectionMembers.members.size
  if sectionSize ≤ M.recommendedSectionSize then []
  else
    let maxRelocations := M.elderCount / 2
    let allowedRelocations := min (sectionSize - M.recommendedSectionSize) maxRelocations
    let candidates := self.relocationCandidates R relocationTrigger excluded
    match (candidates.map (·.age)).max? with
    | none => []
    | some maxAge => (candidates.filter (·.age = maxAge)).take allowedRelocations

/-! ## Who is relocated -/

/-- A member that may be relocated: an adult that is not excluded and passes the check. -/
def MayRelocate (node : M.State) : Prop :=
  node ∈ self.sectionMembers.members ∧ self.isElder node.name = false ∧
    relocationCheck node.age (R.churnId relocationTrigger).toBytes = true ∧ node.name ∉ excluded

def Oldest (node : M.State) : Prop :=
  self.MayRelocate R relocationTrigger excluded node ∧
    ∀ other, self.MayRelocate R relocationTrigger excluded other → other.age ≤ node.age

/-- What is to be relocated: the closest of the oldest, as many as there are at most, and not so many
that the section falls below the recommended size. -/
structure Relocates (chosen : List M.State) : Prop where
  distinct : (chosen.map NodeState.name).Nodup
  oldest : ∀ node ∈ chosen, self.Oldest R relocationTrigger excluded node
  count : chosen.length = min (M.elderCount / 2)
    (min (self.sectionMembers.members.size - M.recommendedSectionSize)
      {node | self.Oldest R relocationTrigger excluded node}.ncard)
  closest : ∀ node ∈ chosen, ∀ other, self.Oldest R relocationTrigger excluded other → other ∉ chosen →
    (R.fromContent (R.churnId relocationTrigger).toBytes).cmpDistance node.name other.name = .lt
  remaining : chosen ≠ [] →
    M.recommendedSectionSize ≤ self.sectionMembers.members.size - chosen.length

section

variable {R self relocationTrigger excluded} {node : M.State}

theorem nodup_names_members (self : NetworkKnowledge M.sections) :
    (self.sectionMembers.members.toList.map NodeState.name).Nodup := by
  have named := NodeScheme.named_membersAtGen self.sectionMembers self.sectionMembers.decisions.length
  refine List.pairwise_map.mpr (ExtTreeSet.distinct_toList.imp_of_mem fun {one other} mem mem' differs same => ?_)
  have found : ∀ node ∈ self.sectionMembers.members.toList,
      (self.sectionMembers.membersAtGen self.sectionMembers.decisions.length)[node.name]? = some node := by
    intro node listed
    rw [ExtTreeSet.mem_toList, SectionMemberHistory.members, ExtTreeSet.mem_ofList, List.contains_iff_mem] at listed
    obtain ⟨⟨name, member⟩, entry, rfl⟩ := List.mem_map.mp listed
    rw [ExtTreeMap.mem_toList_iff_getElem?_eq_some] at entry
    rw [named name member entry, entry]
  have equal := found one mem
  rw [same, found other mem'] at equal
  rw [Option.some.inj equal] at differs
  exact differs ReflCmp.compare_self

theorem isAdult_of_mem (listed : node ∈ self.sectionMembers.members) :
    self.isAdult node.name = true ↔ self.isElder node.name = false := by
  simp only [isAdult, adults, List.any_eq_true, ExtTreeSet.mem_toList, ExtTreeSet.mem_ofList,
    List.contains_iff_mem, List.mem_map, List.mem_filter, beq_iff_eq, Bool.not_eq_true']
  constructor
  · rintro ⟨id, ⟨other, ⟨_, adult⟩, rfl⟩, same⟩
    exact (congrArg self.isElder same.symm).trans adult
  · intro adult
    exact ⟨node.nodeId, ⟨node, ⟨listed, adult⟩, rfl⟩, rfl⟩

theorem mem_relocationCandidates : node ∈ self.relocationCandidates R relocationTrigger excluded ↔
    self.MayRelocate R relocationTrigger excluded node := by
  rw [relocationCandidates, (List.mergeSort_perm _ _).mem_iff, List.mem_filter, List.mem_filter,
    List.mem_filter, ExtTreeSet.mem_toList, MayRelocate, Bool.not_eq_true', and_assoc, and_assoc]
  refine and_congr_right fun listed => ?_
  rw [isAdult_of_mem listed, ← Bool.not_eq_true (excluded.contains node.name), ExtTreeSet.contains_iff_mem]

theorem pairwise_relocationCandidates : (self.relocationCandidates R relocationTrigger excluded).Pairwise
    fun one other => (R.fromContent (R.churnId relocationTrigger).toBytes).cmpDistance one.name other.name = .lt := by
  generalize target : R.fromContent (R.churnId relocationTrigger).toBytes = targetName
  rw [relocationCandidates, target]
  generalize remaining : List.filter _ _ = candidates
  have apart : (candidates.map NodeState.name).Nodup := by
    rw [← remaining]
    exact self.nodup_names_members.sublist
      (((List.filter_sublist.trans List.filter_sublist).trans List.filter_sublist).map _)
  have distinct : (candidates.mergeSort fun lhs rhs => (targetName.cmpDistance lhs.name rhs.name).isLE).Pairwise
      fun one other => one.name ≠ other.name :=
    List.pairwise_map.mp (((List.mergeSort_perm candidates _).map NodeState.name).nodup_iff.mpr apart)
  have : TransCmp fun one other : M.State => targetName.cmpDistance one.name other.name :=
    inferInstanceAs (TransCmp (compareOn fun node : M.State => targetName.bits.zipWith xor node.name.bits))
  refine Ranking.pairwise_lt (Ranking.pairwise_mergeSort
    (fun one other : M.State => targetName.cmpDistance one.name other.name) candidates) ?_
  exact distinct.imp fun differ same => differ (XorName.eq_of_cmpDistance same)

theorem mem_filter_maxAge {maxAge : Nat}
    (max : ((self.relocationCandidates R relocationTrigger excluded).map NodeState.age).max? = some maxAge) :
    node ∈ (self.relocationCandidates R relocationTrigger excluded).filter (·.age = maxAge) ↔
      self.Oldest R relocationTrigger excluded node := by
  obtain ⟨reached, bound⟩ := List.max?_eq_some_iff.mp max
  obtain ⟨top, listed, isMax⟩ := List.mem_map.mp reached
  rw [List.mem_filter, mem_relocationCandidates, decide_eq_true_eq, Oldest]
  refine and_congr_right fun may => ?_
  constructor
  · rintro rfl other may'
    exact bound _ (List.mem_map.mpr ⟨other, mem_relocationCandidates.mpr may', rfl⟩)
  · intro largest
    refine Nat.le_antisymm (bound _ (List.mem_map.mpr ⟨node, mem_relocationCandidates.mpr may, rfl⟩)) ?_
    rw [← isMax]
    exact largest top (mem_relocationCandidates.mp listed)

theorem ncard_oldest {oldest : List M.State} (distinct : oldest.Nodup)
    (mem_iff : ∀ node, node ∈ oldest ↔ self.Oldest R relocationTrigger excluded node) :
    {node | self.Oldest R relocationTrigger excluded node}.ncard = oldest.length := by
  classical
  have same : {node | self.Oldest R relocationTrigger excluded node} = (oldest.toFinset : Set M.State) := by
    ext node
    simp [mem_iff]
  rw [same, Set.ncard_coe_finset, List.toFinset_card_of_nodup distinct]

theorem relocates_nil (none : self.sectionMembers.members.size ≤ M.recommendedSectionSize ∨
    ∀ node, ¬ self.Oldest R relocationTrigger excluded node) : self.Relocates R relocationTrigger excluded [] := by
  refine ⟨List.nodup_nil, by simp, ?_, by simp, by simp⟩
  obtain small | empty := none
  · simp [Nat.sub_eq_zero_of_le small]
  · simp [empty]

theorem relocates_take {oldest : List M.State} (large : M.recommendedSectionSize < self.sectionMembers.members.size)
    (sorted : oldest.Pairwise fun one other =>
      (R.fromContent (R.churnId relocationTrigger).toBytes).cmpDistance one.name other.name = .lt)
    (mem_iff : ∀ node, node ∈ oldest ↔ self.Oldest R relocationTrigger excluded node) :
    self.Relocates R relocationTrigger excluded (oldest.take
      (min (self.sectionMembers.members.size - M.recommendedSectionSize) (M.elderCount / 2))) := by
  have distinct : (oldest.map NodeState.name).Nodup := by
    refine List.pairwise_map.mpr (sorted.imp fun {one other} less same => ?_)
    rw [same] at less
    cases less.symm.trans ReflCmp.compare_self
  have size := ncard_oldest (List.Nodup.of_map _ distinct) mem_iff
  refine ⟨distinct.sublist ((List.take_sublist _ _).map _),
    fun node chosen => (mem_iff node).mp (List.mem_of_mem_take chosen), ?_, fun node chosen other isOldest left => ?_,
    fun _ => ?_⟩
  · rw [List.length_take, size]
    omega
  · have closer := Ranking.rel_of_take sorted chosen ((mem_iff other).mpr isOldest) left
    exact closer
  · rw [List.length_take]
    omega

end

theorem findNodesToRelocate_relocates : self.Relocates R relocationTrigger excluded
    (self.findNodesToRelocate R relocationTrigger excluded) := by
  rw [findNodesToRelocate]
  split
  · rename_i small
    exact relocates_nil (.inl small)
  · rename_i large
    dsimp only
    split
    · rename_i max
      refine relocates_nil (.inr fun node oldest => ?_)
      rw [List.max?_eq_none_iff, List.map_eq_nil_iff] at max
      exact List.not_mem_nil (max ▸ mem_relocationCandidates.mpr oldest.1)
    · rename_i max
      exact relocates_take (Nat.lt_of_not_le large) (pairwise_relocationCandidates.filter _)
        fun node => mem_filter_maxAge max

end NetworkKnowledge

end SafeNetwork
