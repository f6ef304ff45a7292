import SafeNetwork.Library.Coding
import SafeNetwork.Node.DkgKeys

/-!
# Telling key generations apart

`DkgSessionId::hash` is the key of the ephemeral keys, the states and the infos of a session. It
covers the padded name of the prefix, the names of the elders, the length of the section chain and
the names of the bootstrap members, one after the other and without separators. Neither the length
of the prefix, the addresses of the elders, the states of the members nor the membership generation
are in it, and the end of the elders can only be told from the length of the whole when the number
of members is known.
-/

namespace SafeNetwork.DkgSessionId

open Std

variable {G : DkgScheme} {session other : G.SessionId} {length length' : Nat}

/-! ## The parts of the hashed bits -/

def chainLenBits (length : Nat) : List Bool :=
  (List.range 8).flatMap fun index => byteBits (length / 256 ^ index % 256)

def afterElders (self : G.SessionId) : List Bool :=
  chainLenBits self.sectionChainLen ++ self.memberNames.flatMap (·.bits)

theorem hashUpdate_eq (self : G.SessionId) : self.hashUpdate =
      self.sapPrefix.name.bits ++ (self.elders.keys.flatMap (·.bits) ++ self.afterElders) := by
  simp [hashUpdate, afterElders, chainLenBits, memberNames, List.flatMap_map]

theorem bits_injective : Function.Injective XorName.bits := by
  rintro ⟨left, _⟩ ⟨right, _⟩ same
  cases same
  rfl

@[simp] theorem length_byteBits (byte : Nat) : (byteBits byte).length = 8 := by
  simp [byteBits]

@[simp] theorem length_chainLenBits (length : Nat) : (chainLenBits length).length = 64 := by
  simp [chainLenBits]

theorem byteBits_injective : Function.Injective fun byte : Fin 256 => byteBits byte.val := by
  intro byte byte' same
  apply Fin.ext
  apply Nat.eq_of_testBit_eq
  intro bit
  by_cases small : bit < 8
  · have there := congrArg (fun bits => bits[7 - bit]?) same
    simp only [byteBits, List.getElem?_map, List.getElem?_range (show 7 - bit < 8 by omega),
      Option.map_some, Option.some.injEq] at there
    rwa [show 7 - (7 - bit) = bit by omega] at there
  · have large : 2 ^ 8 ≤ 2 ^ bit := Nat.pow_le_pow_right (by decide) (Nat.le_of_not_lt small)
    rw [Nat.testBit_lt_two_pow (byte.isLt.trans_le large),
      Nat.testBit_lt_two_pow (byte'.isLt.trans_le large)]

theorem bytes_eq_iff (count : Nat) :
    (∀ index ∈ List.range count, length / 256 ^ index % 256 = length' / 256 ^ index % 256) ↔
      length % 256 ^ count = length' % 256 ^ count := by
  induction count with
  | zero => simp [Nat.mod_one]
  | succ count ih =>
    rw [List.range_succ, List.forall_mem_append, ih, List.forall_mem_singleton, Nat.mod_pow_succ, Nat.mod_pow_succ]
    constructor
    · rintro ⟨low, byte⟩
      rw [low, byte]
    · intro same
      have low := congrArg (· % 256 ^ count) same
      simp only [Nat.add_mul_mod_self_left, Nat.mod_mod] at low
      rw [low] at same
      exact ⟨low, Nat.eq_of_mul_eq_mul_left (Nat.pow_pos (by decide)) (Nat.add_left_cancel same)⟩

theorem chainLenBits_inj : chainLenBits length = chainLenBits length' ↔ length % 2 ^ 64 = length' % 2 ^ 64 := by
  let byte (length index : Nat) : Fin 256 := ⟨length / 256 ^ index % 256, Nat.mod_lt _ (by decide)⟩
  have listed : ∀ length, chainLenBits length =
      ((List.range 8).map (byte length)).flatMap fun byte => byteBits byte.val := by
    intro length
    rw [List.flatMap_map]
    rfl
  rw [listed, listed, Coding.flatMap_inj (fun _ => length_byteBits _) (by decide) byteBits_injective,
    List.map_inj_left, show 2 ^ 64 = 256 ^ 8 by decide, ← bytes_eq_iff 8]
  simp only [byte, Fin.mk.injEq]

/-! ## Sessions with the same hashed bits -/

/-- The elders' names, the length and the members' names of two sessions are the same. -/
def SameFields (session other : G.SessionId) : Prop :=
  session.elders.keys = other.elders.keys ∧
    session.sectionChainLen % 2 ^ 64 = other.sectionChainLen % 2 ^ 64 ∧
    session.memberNames = other.memberNames

/-- What follows the elders of one session reads as further elders of the other and what follows
them. -/
def Shifted (session other : G.SessionId) : Prop :=
  ∃ elder more, other.elders.keys = session.elders.keys ++ elder :: more ∧
    session.afterElders = (elder :: more).flatMap (·.bits) ++ other.afterElders

theorem afterElders_inj : session.afterElders = other.afterElders ↔
      session.sectionChainLen % 2 ^ 64 = other.sectionChainLen % 2 ^ 64 ∧
        session.memberNames = other.memberNames := by
  constructor
  · intro same
    obtain ⟨length, members⟩ := List.append_inj same (by simp)
    exact ⟨chainLenBits_inj.mp length,
      (Coding.flatMap_inj (fun name => name.length_eq) (by decide) bits_injective).mp members⟩
  · rintro ⟨length, members⟩
    rw [afterElders, afterElders, chainLenBits_inj.mpr length, members]

/-- With at most as many elders, the bits after the prefix are the same when the fields are, or when
some of them are taken for elders. -/
theorem elders_append_eq_iff (fewer : session.elders.keys.length ≤ other.elders.keys.length) :
    session.elders.keys.flatMap (·.bits) ++ session.afterElders =
        other.elders.keys.flatMap (·.bits) ++ other.afterElders ↔
      SameFields session other ∨ Shifted session other := by
  rw [Coding.flatMap_append_eq_iff (fun name => name.length_eq) bits_injective fewer]
  constructor
  · rintro ⟨more, keys, after⟩
    cases more with
    | nil => exact Or.inl ⟨by simpa using keys.symm, afterElders_inj.mp (by simpa using after)⟩
    | cons elder more => exact Or.inr ⟨elder, more, keys, after⟩
  · rintro (⟨keys, after⟩ | ⟨elder, more, keys, after⟩)
    · exact ⟨[], by simpa using keys.symm, by simpa using afterElders_inj.mpr after⟩
    · exact ⟨elder :: more, keys, after⟩

theorem SameFields.symm (same : SameFields session other) : SameFields other session :=
  ⟨same.1.symm, same.2.1.symm, same.2.2.symm⟩

theorem Shifted.length_lt (shifted : Shifted session other) :
    session.elders.keys.length < other.elders.keys.length := by
  obtain ⟨elder, more, keys, -⟩ := shifted
  rw [keys, List.length_append, List.length_cons]
  omega

/-- Two sessions are hashed from the same bits exactly when their prefixes have the same padded name
and the fields that are hashed are the same or run into each other. -/
theorem hashUpdate_eq_iff : session.hashUpdate = other.hashUpdate ↔
      session.sapPrefix.name = other.sapPrefix.name ∧
        (SameFields session other ∨ Shifted session other ∨ Shifted other session) := by
  have lengths : session.sapPrefix.name.bits.length = other.sapPrefix.name.bits.length := by
    rw [XorName.length_eq, XorName.length_eq]
  have parts : session.hashUpdate = other.hashUpdate ↔
      session.sapPrefix.name = other.sapPrefix.name ∧
        session.elders.keys.flatMap (·.bits) ++ session.afterElders =
          other.elders.keys.flatMap (·.bits) ++ other.afterElders := by
    rw [hashUpdate_eq, hashUpdate_eq, ← bits_injective.eq_iff]
    exact ⟨fun same => List.append_inj same lengths, fun same => by rw [same.1, same.2]⟩
  rw [parts]
  refine and_congr_right fun _ => ?_
  obtain fewer | more := Nat.le_total session.elders.keys.length other.elders.keys.length
  · have none : ¬ Shifted other session := fun shifted => absurd shifted.length_lt (by omega)
    rw [elders_append_eq_iff fewer, or_iff_left none]
  · have none : ¬ Shifted session other := fun shifted => absurd shifted.length_lt (by omega)
    rw [eq_comm, elders_append_eq_iff more]
    exact ⟨.imp .symm .inr, fun either => either.imp .symm fun shifted => shifted.resolve_left none⟩

/-- The hash can tell two sessions apart: their prefixes have different padded names, or a field that
is hashed differs and the fields do not run into each other. -/
def Apart (session other : G.SessionId) : Prop :=
  session.sapPrefix.name ≠ other.sapPrefix.name ∨
    (¬ SameFields session other ∧ ¬ Shifted session other ∧ ¬ Shifted other session)

/-- Which sessions are fed to the hash as different bits, and so, without collisions of the hash, which
sessions have different hashes. -/
theorem hashUpdate_ne_iff (session other : G.SessionId) :
    (session.hashUpdate ≠ other.hashUpdate ↔ Apart session other) ∧
      (Function.Injective G.sha3 → (session.hash ≠ other.hash ↔ Apart session other)) := by
  have fed : session.hashUpdate ≠ other.hashUpdate ↔ Apart session other := by
    rw [Ne, hashUpdate_eq_iff, Apart]
    tauto
  refine ⟨fed, fun injective => ?_⟩
  rw [hash, hash, injective.ne_iff, fed]

/-! ## Samples -/

def sampleSessionWith (sapPrefix : Prefix) (addr : Nat) (membershipGen : UInt64) (length : Nat) :
    sampleDkg.SessionId :=
  ⟨sapPrefix, .ofList [(sampleNodeName [false], addr), (sampleNodeName [true], 2)], length, ∅,
    membershipGen⟩

def sampleElderSession : sampleDkg.SessionId := ⟨default, .ofList [(sampleNodeName [], 1)], 0, ∅, 0⟩

def sampleMemberSession : sampleDkg.SessionId :=
  ⟨default, ∅, 0, .ofList [(.joined (sampleNodeId [] 1) none : sampleDkg.State)], 0⟩

theorem hash_ne_sampleSessionWith :
    (sampleSessionWith default 1 0 1).hash ≠ (sampleSessionWith default 1 0 2).hash := by
  refine ((hashUpdate_ne_iff _ _).2 Function.injective_id).mpr (Or.inr ⟨fun same => ?_,
    fun shifted => lt_irrefl _ shifted.length_lt, fun shifted => lt_irrefl _ shifted.length_lt⟩)
  have lengths := same.2.1
  revert lengths
  decide

/-- Pairs of sessions with one hash: they differ in the membership generation, in the length of the
prefix, in the address of an elder, and in that a name is one of an elder or of a member. -/
theorem hash_eq_sampleSessionWith : (sampleSessionWith default 1 0 1 ≠ sampleSessionWith default 1 1 1 ∧
      (sampleSessionWith default 1 0 1).hash = (sampleSessionWith default 1 1 1).hash) ∧
    (sampleSessionWith default 1 0 1 ≠ sampleSessionWith ⟨[false]⟩ 1 0 1 ∧
      (sampleSessionWith default 1 0 1).hash = (sampleSessionWith ⟨[false]⟩ 1 0 1).hash) ∧
    (sampleSessionWith default 1 0 1 ≠ sampleSessionWith default 3 0 1 ∧
      (sampleSessionWith default 1 0 1).hash = (sampleSessionWith default 3 0 1).hash) ∧
    (sampleElderSession ≠ sampleMemberSession ∧
      sampleElderSession.hash = sampleMemberSession.hash) := by
  refine ⟨⟨fun same => ?_, by decide +kernel⟩, ⟨fun same => ?_, by decide +kernel⟩,
    ⟨fun same => ?_, by decide +kernel⟩, fun same => ?_, by decide +kernel⟩
  · have gens := congrArg membershipGen same
    revert gens
    decide
  · have prefixes := congrArg sapPrefix same
    revert prefixes
    decide
  · have addrs := congrArg (fun session => session.elders[sampleNodeName [false]]?) same
    revert addrs
    decide +kernel
  · have sizes := congrArg (fun session => session.elders.size) same
    revert sizes
    decide +kernel

end SafeNetwork.DkgSessionId
