import SafeNetwork.Library.Tally
import SafeNetwork.NetworkKnowledge.SampleKeys
import SafeNetwork.NetworkKnowledge.SectionAuthorityProvider

/-!
# Signature aggregators

`messaging/signature_aggregator.rs`: signature shares for some payload are collected one by one, until
there are enough of them to be combined into a signature of the section. Shares are kept by a hash of
the payload and the public key of their key set. Key sets of one public key can differ, and their shares
are kept together.

While they are not mixed, collecting shares is counting the indices they have, and a combined signature
is a valid one.
-/

namespace SafeNetwork

open Std

structure ShareScheme extends KeyScheme where
  PublicKeySet : Type
  SignatureShare : Type
  Digest256 : Type
  BlsError : Type
  [decidableEqPublicKeySet : DecidableEq PublicKeySet]
  [ordPublicKeySet : Ord PublicKeySet]
  [transOrdPublicKeySet : TransOrd PublicKeySet]
  [lawfulEqOrdPublicKeySet : LawfulEqOrd PublicKeySet]
  [ordSignatureShare : Ord SignatureShare]
  [transOrdSignatureShare : TransOrd SignatureShare]
  [lawfulEqOrdSignatureShare : LawfulEqOrd SignatureShare]
  [ordDigest256 : Ord Digest256]
  [transOrdDigest256 : TransOrd Digest256]
  [lawfulEqOrdDigest256 : LawfulEqOrd Digest256]
  publicKey : PublicKeySet → PublicKey
  threshold : PublicKeySet → Nat
  /-- `PublicKeyShare::verify` with the share of a key set at an index. -/
  verifyShare : PublicKeySet → Nat → SignatureShare → List UInt8 → Bool
  combineSignatures : PublicKeySet → List (Nat × SignatureShare) → Except BlsError Signature
  /-- The `Sha3` hash of a payload followed by the bytes of a public key. -/
  digest : List UInt8 → PublicKey → Digest256

attribute [instance] ShareScheme.decidableEqPublicKeySet ShareScheme.ordPublicKeySet
  ShareScheme.transOrdPublicKeySet ShareScheme.lawfulEqOrdPublicKeySet ShareScheme.ordSignatureShare
  ShareScheme.transOrdSignatureShare ShareScheme.lawfulEqOrdSignatureShare ShareScheme.ordDigest256
  ShareScheme.transOrdDigest256 ShareScheme.lawfulEqOrdDigest256

/-- What the crates are assumed to do: hashes do not collide, a key set has one valid share for an index
and a payload, and enough valid shares of one key set with distinct indices combine to a valid signature. -/
structure ShareScheme.Lawful (S : ShareScheme) : Prop where
  digest_inj : ∀ {payload key otherPayload otherKey},
    S.digest payload key = S.digest otherPayload otherKey → payload = otherPayload ∧ key = otherKey
  share_unique : ∀ {keySet index share other payload}, S.verifyShare keySet index share payload = true →
    S.verifyShare keySet index other payload = true → share = other
  combines : ∀ {keySet shares payload},
    (∀ share ∈ shares, S.verifyShare keySet share.1 share.2 payload = true) →
    (shares.map Prod.fst).Nodup → S.threshold keySet < shares.length →
      ∃ signature, S.combineSignatures keySet shares = .ok signature ∧
        S.verify (S.publicKey keySet) signature payload = true

/-- `SectionSigShare` — single share of a `SectionSig`. -/
structure SectionSigShare (S : ShareScheme) where
  publicKeySet : S.PublicKeySet
  index : Nat
  /-- The signature share of the `index`-th public key share of the public key set. -/
  signatureShare : S.SignatureShare

variable {S : ShareScheme}

namespace SectionSigShare

def verify (self : SectionSigShare S) (payload : List UInt8) : Bool :=
  S.verifyShare self.publicKeySet self.index self.signatureShare payload

instance : Ord (SectionSigShare S) :=
  ⟨compareLex (compareOn publicKeySet) (compareLex (compareOn index) (compareOn signatureShare))⟩

instance : TransOrd (SectionSigShare S) :=
  inferInstanceAs (TransCmp (compareLex (compareOn publicKeySet)
    (compareLex (compareOn index) (compareOn signatureShare))))

instance : LawfulEqOrd (SectionSigShare S) where
  eq_of_compare := by
    rintro ⟨keySet, index, share⟩ ⟨otherSet, otherIndex, otherShare⟩ same
    obtain ⟨keySets, rest⟩ := compareLex_eq_eq.mp same
    obtain ⟨indices, shares⟩ := compareLex_eq_eq.mp rest
    obtain rfl : keySet = otherSet := Std.compare_eq_iff_eq.mp keySets
    obtain rfl : index = otherIndex := Std.compare_eq_iff_eq.mp indices
    obtain rfl : share = otherShare := Std.compare_eq_iff_eq.mp shares
    rfl

end SectionSigShare

inductive AggregatorError (S : ShareScheme) where
  | invalidSigShare
  /-- The signature combination failed even though there are enough valid signature shares. -/
  | failedToCombineSigShares (error : S.BlsError)

/-- The signature shares by the hashes of payload and key. -/
abbrev ShareMap (S : ShareScheme) : Type := ExtTreeMap S.Digest256 (ExtTreeSet (SectionSigShare S))

abbrev Aggregation (S : ShareScheme) : Type :=
  Except (AggregatorError S) (Option (SectionSig S.toKeyScheme))

namespace ShareMap

def shares (self : ShareMap S) (payload : List UInt8) (publicKey : S.PublicKey) :
    ExtTreeSet (SectionSigShare S) := self[S.digest payload publicKey]?.getD ∅

/-- `try_aggregate` of both aggregators, which differ in the number of shares that is enough. -/
def tryAggregate (self : ShareMap S) (enough : Nat → Bool) (payload : List UInt8)
    (sigShare : SectionSigShare S) : Aggregation S × ShareMap S :=
  if !sigShare.verify payload then (.error .invalidSigShare, self)
  else
    let publicKey := S.publicKey sigShare.publicKeySet
    let hash := S.digest payload publicKey
    let currentShares := (self.shares payload publicKey).insert sigShare
    let map := self.insert hash currentShares
    if enough currentShares.size then
      match S.combineSignatures sigShare.publicKeySet
        (currentShares.toList.map fun share => (share.index, share.signatureShare)) with
      | .error error => (.error (.failedToCombineSigShares error), map)
      | .ok signature => (.ok (some ⟨publicKey, signature⟩), map.erase hash)
    else (.ok none, map)

end ShareMap

structure SignatureAggregator (S : ShareScheme) where
  map : ShareMap S := ∅

def SignatureAggregator.tryAggregate (self : SignatureAggregator S) (payload : List UInt8)
    (sigShare : SectionSigShare S) : Aggregation S × SignatureAggregator S :=
  let (result, map) := self.map.tryAggregate
    (fun count => S.threshold sigShare.publicKeySet < count) payload sigShare
  (result, ⟨map⟩)

structure TotalParticipationAggregator (S : ShareScheme) where
  map : ShareMap S := ∅

def TotalParticipationAggregator.tryAggregate (self : TotalParticipationAggregator S)
    (payload : List UInt8) (sigShare : SectionSigShare S) (totalParticipants : Nat) :
    Aggregation S × TotalParticipationAggregator S :=
  let (result, map) := self.map.tryAggregate (· == totalParticipants) payload sigShare
  (result, ⟨map⟩)

/-! ## What a call does -/

namespace ShareMap

variable {before : ShareMap S} {payload : List UInt8} {share : SectionSigShare S} {other : List UInt8}
  {key : S.PublicKey} {after : ShareMap S} {set : ExtTreeSet (SectionSigShare S)}

theorem compare_digest (lawful : S.Lawful) {payload : List UInt8} {otherKey : S.PublicKey} :
    compare (S.digest payload key) (S.digest other otherKey) = .eq ↔ payload = other ∧ key = otherKey := by
  rw [Std.compare_eq_iff_eq]
  constructor
  · exact lawful.digest_inj
  · rintro ⟨rfl, rfl⟩
    rfl

theorem shares_insert (lawful : S.Lawful) (before : ShareMap S) (payload other : List UInt8)
    (key otherKey : S.PublicKey) (set : ExtTreeSet (SectionSigShare S)) :
    shares (before.insert (S.digest payload key) set) other otherKey =
      if payload = other ∧ key = otherKey then set else shares before other otherKey := by
  simp only [shares, ExtTreeMap.getElem?_insert, compare_digest lawful]
  split <;> rfl

theorem shares_erase (lawful : S.Lawful) (before : ShareMap S) (payload other : List UInt8)
    (key otherKey : S.PublicKey) : shares (before.erase (S.digest payload key)) other otherKey =
      if payload = other ∧ key = otherKey then ∅ else shares before other otherKey := by
  simp only [shares, ExtTreeMap.getElem?_erase, compare_digest lawful]
  split <;> rfl

/-- The shares that are combined, as they are passed to `combine_signatures`. -/
def listed (set : ExtTreeSet (SectionSigShare S)) : List (Nat × S.SignatureShare) :=
  set.toList.map fun share => (share.index, share.signatureShare)

def joined (before : ShareMap S) (payload : List UInt8) (share : SectionSigShare S) :
    ExtTreeSet (SectionSigShare S) :=
  (before.shares payload (S.publicKey share.publicKeySet)).insert share

/-- What `try_aggregate` can answer, and the shares there are afterwards. -/
inductive Aggregated (enough : Nat → Bool) (before : ShareMap S) (payload : List UInt8)
    (share : SectionSigShare S) : Aggregation S → ShareMap S → Prop where
  | invalid (invalid : share.verify payload = false) :
    Aggregated enough before payload share (.error .invalidSigShare) before
  | waiting (valid : share.verify payload = true)
    (few : enough (before.joined payload share).size = false) :
    Aggregated enough before payload share (.ok none)
      (before.insert (S.digest payload (S.publicKey share.publicKeySet)) (before.joined payload share))
  | failed (valid : share.verify payload = true)
    (many : enough (before.joined payload share).size = true) {error : S.BlsError}
    (fails : S.combineSignatures share.publicKeySet (listed (before.joined payload share)) =
      .error error) :
    Aggregated enough before payload share (.error (.failedToCombineSigShares error))
      (before.insert (S.digest payload (S.publicKey share.publicKeySet)) (before.joined payload share))
  | combined (valid : share.verify payload = true)
    (many : enough (before.joined payload share).size = true) {signature : S.Signature}
    (combines : S.combineSignatures share.publicKeySet (listed (before.joined payload share)) =
      .ok signature) :
    Aggregated enough before payload share (.ok (some ⟨S.publicKey share.publicKeySet, signature⟩))
      ((before.insert (S.digest payload (S.publicKey share.publicKeySet))
        (before.joined payload share)).erase (S.digest payload (S.publicKey share.publicKeySet)))

theorem aggregated (enough : Nat → Bool) (before : ShareMap S) (payload : List UInt8) (share : SectionSigShare S) :
    Aggregated enough before payload share (before.tryAggregate enough payload share).1
      (before.tryAggregate enough payload share).2 := by
  cases valid : share.verify payload with
  | false =>
    simp only [tryAggregate, valid, Bool.not_false, if_true]
    exact .invalid valid
  | true =>
    simp only [tryAggregate, valid, Bool.not_true, Bool.false_eq_true, if_false]
    split
    · rename_i many
      split
      · rename_i error fails
        exact .failed valid many fails
      · rename_i signature combines
        exact .combined valid many combines
    · rename_i few
      exact .waiting valid (Bool.eq_false_iff.mpr few)

theorem mem_shares_tryAggregate (lawful : S.Lawful) {enough : Nat → Bool} {member : SectionSigShare S}
    (mem : member ∈ (before.tryAggregate enough payload share).2.shares other key) :
    member ∈ before.shares other key ∨ member = share ∧ share.verify payload = true ∧
      payload = other ∧ S.publicKey share.publicKeySet = key := by
  -- Whatever the answer is, the shares of other payloads and keys stay.
  have inserted : share.verify payload = true →
      member ∈ shares (before.insert (S.digest payload (S.publicKey share.publicKeySet))
        (before.joined payload share)) other key →
      member ∈ before.shares other key ∨ member = share ∧ share.verify payload = true ∧
        payload = other ∧ S.publicKey share.publicKeySet = key := by
    intro valid inside
    rw [shares_insert lawful] at inside
    split at inside
    · rename_i place
      obtain ⟨rfl, rfl⟩ := place
      rcases ExtTreeSet.mem_insert.mp inside with same | earlier
      · exact .inr ⟨(Std.compare_eq_iff_eq.mp same).symm, valid, rfl, rfl⟩
      · exact .inl earlier
    · exact .inl inside
  have outcome := aggregated enough before payload share
  generalize (before.tryAggregate enough payload share).1 = result,
    (before.tryAggregate enough payload share).2 = after at outcome mem
  cases outcome with
  | invalid => exact .inl mem
  | waiting valid => exact inserted valid mem
  | failed valid => exact inserted valid mem
  | combined valid =>
    rw [shares_erase lawful] at mem
    split at mem
    · simp at mem
    · exact inserted valid mem

/-! ## Shares of one key set -/

section

variable {keySet : S.PublicKeySet} {set : ExtTreeSet (SectionSigShare S)}

def Uniform (keySet : S.PublicKeySet) (payload : List UInt8) (set : ExtTreeSet (SectionSigShare S)) :
    Prop :=
  ∀ share : SectionSigShare S, share ∈ set → share.publicKeySet = keySet ∧ share.verify payload = true

theorem Uniform.nodup (lawful : S.Lawful) (uniform : Uniform keySet payload set) :
    (set.toList.map (·.index)).Nodup := by
  refine List.pairwise_map.mpr (ExtTreeSet.distinct_toList.imp_of_mem ?_)
  intro share other mem mem' apart same
  obtain ⟨ofSet, valid⟩ := uniform share (ExtTreeSet.mem_toList.mp mem)
  obtain ⟨ofSet', valid'⟩ := uniform other (ExtTreeSet.mem_toList.mp mem')
  obtain ⟨keys, index, sig⟩ := share
  obtain ⟨keys', index', sig'⟩ := other
  dsimp only at ofSet ofSet' same
  subst ofSet ofSet' same
  obtain rfl := lawful.share_unique valid valid'
  exact apart Std.compare_self

theorem Uniform.combines (lawful : S.Lawful) (uniform : Uniform keySet payload set)
    (enough : S.threshold keySet < set.size) : ∃ signature, S.combineSignatures keySet (listed set) = .ok signature ∧
      S.verify (S.publicKey keySet) signature payload = true := by
  refine lawful.combines ?_ ?_ ?_
  · intro pair mem
    obtain ⟨share, member, rfl⟩ := List.mem_map.mp mem
    obtain ⟨rfl, valid⟩ := uniform share (ExtTreeSet.mem_toList.mp member)
    exact valid
  · rw [listed, List.map_map]
    exact uniform.nodup lawful
  · rwa [listed, List.length_map, ExtTreeSet.length_toList]

def indices (set : ExtTreeSet (SectionSigShare S)) : Finset Nat :=
  (set.toList.map (·.index)).toFinset

theorem mem_indices {index : Nat} :
    index ∈ indices set ↔ ∃ share : SectionSigShare S, share ∈ set ∧ share.index = index := by
  simp [indices, ExtTreeSet.mem_toList]

theorem indices_insert : indices (set.insert share) = insert share.index (indices set) := by
  ext index
  simp only [mem_indices, Finset.mem_insert, ExtTreeSet.mem_insert, Std.compare_eq_iff_eq]
  constructor
  · rintro ⟨other, rfl | mem, rfl⟩
    · exact .inl rfl
    · exact .inr ⟨other, mem, rfl⟩
  · rintro (rfl | ⟨other, mem, rfl⟩)
    · exact ⟨share, .inl rfl, rfl⟩
    · exact ⟨other, .inr mem, rfl⟩

theorem Uniform.insert (uniform : Uniform share.publicKeySet payload set) (valid : share.verify payload = true) :
    Uniform share.publicKeySet payload (set.insert share) := by
  intro other mem
  rcases ExtTreeSet.mem_insert.mp mem with same | earlier
  · obtain rfl := Std.compare_eq_iff_eq.mp same
    exact ⟨rfl, valid⟩
  · exact uniform other earlier

theorem Uniform.empty : Uniform keySet payload ∅ := by
  intro share mem
  simp at mem

/-- The indices of the shares that were collected for a payload and a key set. -/
def voters (self : ShareMap S) (key : List UInt8 × S.PublicKeySet) : Finset Nat :=
  (((self.shares key.1 (S.publicKey key.2)).toList.filter (·.publicKeySet = key.2)).map
    (·.index)).toFinset

theorem mem_voters {self : ShareMap S} {index : Nat} : index ∈ self.voters (payload, keySet) ↔
      ∃ share : SectionSigShare S, share ∈ self.shares payload (S.publicKey keySet) ∧
        share.publicKeySet = keySet ∧ share.index = index := by
  simp [voters, ExtTreeSet.mem_toList, and_assoc]

theorem Uniform.size_eq (lawful : S.Lawful) (uniform : Uniform keySet payload set) :
    set.size = (indices set).card := by
  rw [indices, List.toFinset_card_of_nodup (uniform.nodup lawful), List.length_map, ExtTreeSet.length_toList]

end

def Unmixed (self : ShareMap S) : Prop :=
  ∀ (payload : List UInt8) (key : S.PublicKey) (share : SectionSigShare S),
    share ∈ self.shares payload key →
      S.publicKey share.publicKeySet = key ∧ Uniform share.publicKeySet payload (self.shares payload key)

/-- A share is of the key set of those it is kept together with, if it is valid. -/
def Alike (self : ShareMap S) (payload : List UInt8) (share : SectionSigShare S) : Prop :=
  share.verify payload = true → ∀ other : SectionSigShare S,
    other ∈ self.shares payload (S.publicKey share.publicKeySet) →
      other.publicKeySet = share.publicKeySet

theorem Unmixed.empty : Unmixed (∅ : ShareMap S) := by
  intro payload key share mem
  simp [shares] at mem

theorem Unmixed.uniform (unmixed : Unmixed before) (alike : Alike before payload share)
    (valid : share.verify payload = true) :
    Uniform share.publicKeySet payload (before.shares payload (S.publicKey share.publicKeySet)) := by
  intro other mem
  obtain ⟨-, uniform⟩ := unmixed _ _ other mem
  exact ⟨alike valid other mem, (uniform other mem).2⟩

theorem Uniform.voters_eq {keySet : S.PublicKeySet}
    (uniform : Uniform keySet payload (before.shares payload (S.publicKey keySet))) :
    before.voters (payload, keySet) = indices (before.shares payload (S.publicKey keySet)) := by
  ext index
  rw [mem_voters, mem_indices]
  exact ⟨fun ⟨share, mem, _, same⟩ => ⟨share, mem, same⟩,
    fun ⟨share, mem, same⟩ => ⟨share, mem, (uniform share mem).1, same⟩⟩

theorem Unmixed.replace (unmixed : Unmixed before) (uniform : Uniform share.publicKeySet payload set)
    (replaced : ∀ other otherKey, after.shares other otherKey =
      if payload = other ∧ S.publicKey share.publicKeySet = otherKey then set
      else before.shares other otherKey) : Unmixed after := by
  intro other key member mem
  rw [replaced] at mem ⊢
  split at mem
  · rename_i same
    obtain ⟨rfl, rfl⟩ := same
    obtain ⟨ofSet, -⟩ := uniform member mem
    rw [if_pos ⟨rfl, rfl⟩, ofSet]
    exact ⟨rfl, uniform⟩
  · rename_i apart
    rw [if_neg apart]
    exact unmixed other key member mem

theorem Alike.voters_replace (alike : Alike before payload share)
    (valid : share.verify payload = true) (uniform : Uniform share.publicKeySet payload set)
    (replaced : ∀ other otherKey, after.shares other otherKey =
      if payload = other ∧ S.publicKey share.publicKeySet = otherKey then set else before.shares other otherKey) :
    after.voters = Function.update before.voters (payload, share.publicKeySet) (indices set) := by
  funext key
  obtain ⟨other, keySet⟩ := key
  ext index
  rw [mem_voters, replaced, Function.update_apply]
  by_cases samePlace : payload = other ∧ S.publicKey share.publicKeySet = S.publicKey keySet
  · obtain ⟨rfl, sameKey⟩ := samePlace
    rw [if_pos ⟨rfl, sameKey⟩]
    by_cases sameSet : keySet = share.publicKeySet
    · subst sameSet
      rw [if_pos rfl, mem_indices]
      exact ⟨fun ⟨member, mem, _, eq⟩ => ⟨member, mem, eq⟩,
        fun ⟨member, mem, eq⟩ => ⟨member, mem, (uniform member mem).1, eq⟩⟩
    · -- No share of another key set of the same key was there before, and none is now.
      rw [if_neg (by simpa using sameSet), mem_voters]
      constructor
      · rintro ⟨member, mem, rfl, -⟩
        exact absurd (uniform member mem).1 sameSet
      · rintro ⟨member, mem, rfl, -⟩
        exact absurd (alike valid member (sameKey ▸ mem)) sameSet
  · rw [if_neg samePlace, if_neg, mem_voters]
    intro same
    obtain ⟨rfl, rfl⟩ := Prod.mk.inj same
    exact samePlace ⟨rfl, rfl⟩

end ShareMap

namespace SignatureAggregator

variable {before : SignatureAggregator S} {payload : List UInt8} {share : SectionSigShare S}

theorem tryAggregate_map : (before.tryAggregate payload share).2.map = (before.map.tryAggregate
    (fun count => S.threshold share.publicKeySet < count) payload share).2 := rfl

/-- A valid share that joins shares of its key set completes a valid signature exactly when the indices
are more than the threshold. Shares of other payloads and keys stay. -/
theorem tryAggregate_uniform (lawful : S.Lawful) (valid : share.verify payload = true)
    {keySet : S.PublicKeySet} (ofKeySet : share.publicKeySet = keySet)
    (uniform : ShareMap.Uniform keySet payload (before.map.shares payload (S.publicKey keySet))) :
    let counted := insert share.index
      (ShareMap.indices (before.map.shares payload (S.publicKey keySet)))
    let after := before.tryAggregate payload share
    ∃ set, ShareMap.Uniform keySet payload set ∧
      (∀ other key, after.2.map.shares other key =
        if payload = other ∧ S.publicKey keySet = key then set else before.map.shares other key) ∧
      if S.threshold keySet < counted.card then
        ShareMap.indices set = ∅ ∧ ∃ sig, after.1 = .ok (some sig) ∧
          sig.publicKey = S.publicKey keySet ∧ sig.verify payload = true
      else ShareMap.indices set = counted ∧ after.1 = .ok none := by
  subst ofKeySet
  intro counted after
  have joined : ShareMap.Uniform share.publicKeySet payload (before.map.joined payload share) :=
    uniform.insert valid
  have indices : ShareMap.indices (before.map.joined payload share) = counted :=
    ShareMap.indices_insert
  have size := joined.size_eq lawful
  rw [indices] at size
  have outcome := ShareMap.aggregated (fun count => S.threshold share.publicKeySet < count)
    before.map payload share
  rw [show (before.map.tryAggregate _ payload share).1 = after.1 from rfl,
    show (before.map.tryAggregate _ payload share).2 = after.2.map from rfl] at outcome
  generalize after.1 = result, after.2.map = map at outcome
  cases outcome with
  | invalid invalid => simp [valid] at invalid
  | waiting _ few =>
    rw [size] at few
    refine ⟨_, joined, fun other key => ShareMap.shares_insert lawful _ _ _ _ _ _, ?_⟩
    rw [if_neg (of_decide_eq_false few)]
    exact ⟨indices, rfl⟩
  | failed _ many fails =>
    obtain ⟨signature, combines, -⟩ := joined.combines lawful (of_decide_eq_true many)
    rw [combines] at fails
    cases fails
  | @combined _ many signature combines =>
    obtain ⟨other, combines', verifies⟩ := joined.combines lawful (of_decide_eq_true many)
    obtain rfl := Except.ok.inj (combines.symm.trans combines')
    rw [size] at many
    refine ⟨∅, .empty, fun other key => ?_, ?_⟩
    · rw [ShareMap.shares_erase lawful, ShareMap.shares_insert lawful]
      split <;> rfl
    · rw [if_pos (of_decide_eq_true many)]
      exact ⟨rfl, _, rfl, rfl, verifies⟩

def limit (key : List UInt8 × S.PublicKeySet) : Nat := S.threshold key.2

/-- While shares are not mixed, a valid share completes a signature exactly when its index completes the
count for its key set, and the signature is valid; the indices are counted accordingly. -/
theorem tryAggregate_counts (lawful : S.Lawful) (unmixed : before.map.Unmixed)
    (alike : before.map.Alike payload share) (valid : share.verify payload = true) :
    let vote := ((payload, share.publicKeySet), share.index)
    let after := before.tryAggregate payload share
    after.2.map.Unmixed ∧ after.2.map.voters = Tally.add limit before.map.voters vote ∧
      if Tally.Completes limit before.map.voters vote then
        ∃ sig, after.1 = .ok (some sig) ∧ sig.publicKey = S.publicKey share.publicKeySet ∧
          sig.verify payload = true
      else after.1 = .ok none := by
  intro vote after
  have uniform := unmixed.uniform alike valid
  obtain ⟨set, ofSet, replaced, answer⟩ := tryAggregate_uniform lawful valid rfl uniform
  rw [← uniform.voters_eq] at answer
  refine ⟨unmixed.replace ofSet replaced, ?_⟩
  rw [alike.voters_replace valid ofSet replaced, Tally.add]
  by_cases completes : Tally.Completes limit before.map.voters vote
  · obtain ⟨indices, returned⟩ := (if_pos completes).mp answer
    rw [if_pos completes, if_pos completes, indices]
    exact ⟨rfl, returned⟩
  · obtain ⟨indices, returned⟩ := (if_neg completes).mp answer
    rw [if_neg completes, if_neg completes, indices]
    exact ⟨rfl, returned⟩

/-! ## Runs -/

abbrev Call (S : ShareScheme) : Type := List UInt8 × SectionSigShare S

def step (before : SignatureAggregator S) (call : Call S) : SignatureAggregator S :=
  (before.tryAggregate call.1 call.2).2

def vote (call : Call S) : Option ((List UInt8 × S.PublicKeySet) × Nat) :=
  if call.2.verify call.1 then some ((call.1, call.2.publicKeySet), call.2.index) else none

def Alike (before : SignatureAggregator S) (call : Call S) : Prop :=
  before.map.Alike call.1 call.2

def Counts (before : SignatureAggregator S) (tally : List UInt8 × S.PublicKeySet → Finset Nat) : Prop :=
  before.map.Unmixed ∧ before.map.voters = tally

variable {tally : List UInt8 × S.PublicKeySet → Finset Nat} {call : Call S}

theorem Counts.empty : Counts (S := S) {} fun _ => ∅ := by
  refine ⟨.empty, funext fun key => ?_⟩
  simp [ShareMap.voters, ShareMap.shares]

theorem eq_of_vote {keySet : S.PublicKeySet} {index : Nat} (voted : vote call = some ((payload, keySet), index)) :
    call.2.verify call.1 = true ∧ call.1 = payload ∧ call.2.publicKeySet = keySet ∧
      call.2.index = index := by
  rw [vote] at voted
  split at voted
  · rename_i valid
    obtain ⟨same, rfl⟩ := Prod.mk.inj (Option.some.inj voted)
    obtain ⟨rfl, rfl⟩ := Prod.mk.inj same
    exact ⟨valid, rfl, rfl, rfl⟩
  · cases voted

theorem tryAggregate_of_invalid (invalid : share.verify payload = false) :
    before.tryAggregate payload share = (.error .invalidSigShare, before) := by
  simp [tryAggregate, ShareMap.tryAggregate, invalid]

theorem Counts.step (lawful : S.Lawful) (counts : Counts before tally) (alike : Alike before call) :
    Counts (before.step call) (Tally.step limit vote tally call) := by
  obtain ⟨unmixed, rfl⟩ := counts
  cases valid : call.2.verify call.1 with
  | false =>
    rw [SignatureAggregator.step, tryAggregate_of_invalid valid, Tally.step, vote, valid]
    exact ⟨unmixed, rfl⟩
  | true =>
    obtain ⟨stays, voters, -⟩ := tryAggregate_counts lawful unmixed alike valid
    rw [Tally.step, vote, valid]
    exact ⟨stays, voters⟩

/-- In any run that adds no valid share to shares of another key set: every signature returned is valid
for its payload, and whenever valid shares of one key set with more indices than its threshold were added
over some calls, one of these calls has returned a signature for the key set. -/
theorem aggregates (lawful : S.Lawful) (calls : List (Call S)) (alike : Runs.Throughout step Alike {} calls) :
    (∀ earlier call later sig, calls = earlier ++ call :: later →
      ((Runs.run step {} earlier).tryAggregate call.1 call.2).1 = .ok (some sig) → sig.verify call.1 = true) ∧
    ∀ earlier window later payload keySet (indices : Finset Nat), calls = earlier ++ window ++ later →
      (∀ index ∈ indices, ∃ share, (payload, share) ∈ window ∧ share.publicKeySet = keySet ∧
        share.index = index ∧ share.verify payload = true) → S.threshold keySet < indices.card →
        ∃ before call after sig, window = before ++ call :: after ∧ call.1 = payload ∧
          call.2.publicKeySet = keySet ∧ sig.publicKey = S.publicKey keySet ∧
          ((Runs.run step {} (earlier ++ before)).tryAggregate call.1 call.2).1 = .ok (some sig) := by
  -- The run up to any call counts the indices of the shares added.
  have counted : ∀ earlier later, calls = earlier ++ later →
      Counts (Runs.run step {} earlier) (Runs.run (Tally.step limit vote) (fun _ => ∅) earlier) ∧
        Runs.Throughout step Alike (Runs.run step {} earlier) later := by
    rintro earlier later rfl
    obtain ⟨first, rest⟩ := Runs.throughout_append.mp alike
    exact ⟨first.simulation .empty fun _ _ _ counts alike => counts.step lawful alike, rest⟩
  constructor
  · intro earlier call later sig split returned
    obtain ⟨⟨unmixed, -⟩, here, -⟩ := counted earlier (call :: later) split
    cases valid : call.2.verify call.1 with
    | false =>
      rw [tryAggregate_of_invalid valid] at returned
      cases returned
    | true =>
      obtain ⟨-, -, answer⟩ := tryAggregate_counts lawful unmixed here valid
      split_ifs at answer
      · obtain ⟨other, answered, -, verifies⟩ := answer
        obtain rfl := Option.some.inj (Except.ok.inj (returned.symm.trans answered))
        exact verifies
      · rw [answer] at returned
        cases returned
  · intro earlier window later payload keySet indices split added enough
    have within : Tally.Within limit (Runs.run (Tally.step limit vote) (fun _ => ∅) earlier) :=
      Runs.run_induction .empty fun _ within call _ => within.step call
    have voted : ∀ index ∈ indices, ∃ call ∈ window, vote call = some ((payload, keySet), index) := by
      intro index mem
      obtain ⟨share, member, rfl, rfl, valid⟩ := added index mem
      exact ⟨(payload, share), member, by simp [vote, valid]⟩
    obtain ⟨before, call, after, index, rfl, given, completes⟩ :=
      Tally.exists_completes within voted enough
    rw [← Runs.run_append] at completes
    obtain ⟨⟨unmixed, tally⟩, here, -⟩ := counted (earlier ++ before) (call :: after ++ later)
      (by rw [split]; simp)
    obtain ⟨valid, rfl, rfl, rfl⟩ := eq_of_vote given
    obtain ⟨-, -, answer⟩ := tryAggregate_counts lawful unmixed here valid
    rw [tally, if_pos completes] at answer
    obtain ⟨sig, returned, ofKey, -⟩ := answer
    exact ⟨before, call, after, sig, rfl, rfl, rfl, ofKey, returned⟩

theorem alike_of_keySets (lawful : S.Lawful) {calls : List (Call S)} (determined : ∀ call ∈ calls, ∀ other ∈ calls,
      S.publicKey call.2.publicKeySet = S.publicKey other.2.publicKeySet →
        call.2.publicKeySet = other.2.publicKeySet) : Runs.Throughout step Alike {} calls := by
  refine Runs.throughout_of_invariant (motive := fun before : SignatureAggregator S =>
    ∀ payload key (share : SectionSigShare S), share ∈ before.map.shares payload key →
      S.publicKey share.publicKeySet = key ∧ ∃ call ∈ calls, call.2 = share) ?_ ?_ ?_
  · intro payload key share mem
    simp [ShareMap.shares] at mem
  · intro before known call mem payload key share member
    rw [step, tryAggregate_map] at member
    rcases ShareMap.mem_shares_tryAggregate lawful member with earlier | ⟨rfl, -, -, ofKey⟩
    · exact known payload key share earlier
    · exact ⟨ofKey, call, mem, rfl⟩
  · intro before known call mem valid other member
    obtain ⟨sameKey, earlier, mem', rfl⟩ := known _ _ other member
    exact determined earlier mem' call mem sameKey

end SignatureAggregator

/-! ## Sample shares -/

/-- The shares of a key set with threshold one: two that are of it give a signature of its key, two that
are not all of it give a signature of no use. -/
def sampleCombine (encoded : List Nat) (key : Nat) (shares : List (Nat × List Nat)) :
    Except Unit (Nat × Nat) :=
  match shares with
  | (index, share) :: second :: rest =>
    let length := share.getD 1 0
    if (((index, share) :: second :: rest).map Prod.fst).Nodup then
      if ((index, share) :: second :: rest).all fun pair => pair.2 == pair.1 :: length :: encoded then
        .ok (key, length)
      else .ok (key + 1, length)
    else .error ()
  | _ => .error ()

/-- Shares over the sample keys, of key sets that are encoded as numbers. A share says its index, the
length of the payload and its key set. -/
abbrev sampleShares (KeySet : Type) [DecidableEq KeySet] [Ord KeySet] [TransOrd KeySet]
    [LawfulEqOrd KeySet] (encode : KeySet → List Nat) (key : KeySet → Nat) : ShareScheme where
  toKeyScheme := sampleKeys
  PublicKeySet := KeySet
  SignatureShare := List Nat
  Digest256 := List Nat
  BlsError := Unit
  publicKey := key
  threshold _ := 1
  verifyShare keySet index share payload := share == index :: payload.length :: encode keySet
  combineSignatures keySet shares := sampleCombine (encode keySet) (key keySet) shares
  digest payload key := key :: payload.map UInt8.toNat

section

variable {KeySet : Type} [DecidableEq KeySet] [Ord KeySet] [TransOrd KeySet] [LawfulEqOrd KeySet]
  {encode : KeySet → List Nat} {key : KeySet → Nat}

theorem sampleShares_lawful : (sampleShares KeySet encode key).Lawful where
  digest_inj := by
    intro payload key other otherKey same
    obtain ⟨rfl, bytes⟩ := List.cons.inj same
    exact ⟨List.map_injective_iff.mpr (fun _ _ => UInt8.toNat_inj.mp) bytes, rfl⟩
  share_unique := by
    intro keySet index share other payload valid valid'
    rw [eq_of_beq valid, eq_of_beq valid']
  combines := by
    intro keySet shares payload valid nodup enough
    match shares, valid, nodup, enough with
    | first :: second :: rest, valid, nodup, _ =>
      have of : ∀ pair ∈ first :: second :: rest, pair.2 = pair.1 :: payload.length :: encode keySet :=
        fun pair mem => eq_of_beq (valid pair mem)
      have length : first.2.getD 1 0 = payload.length := by
        rw [of first (List.mem_cons_self ..)]
        rfl
      refine ⟨(key keySet, payload.length), ?_, by simp⟩
      dsimp only [sampleCombine]
      rw [if_pos nodup, length, if_pos]
      simpa using of

end


namespace SignatureAggregator

abbrev sampleKeySets : ShareScheme := sampleShares (List Nat) id (·.headD 0)

def sampleShare (keySet : List Nat) (index : Nat) : SectionSigShare sampleKeySets :=
  ⟨keySet, index, index :: 1 :: keySet⟩

def sampleCalls : List (Call sampleKeySets) :=
  [([0], sampleShare [7, 0] 0), ([0], sampleShare [7, 0] 1)]

theorem aggregates_sampleCalls : ∃ before call after sig, sampleCalls = before ++ call :: after ∧ call.1 = [0] ∧
      call.2.publicKeySet = [7, 0] ∧ sig.publicKey = (7 : Nat) ∧
      ((Runs.run step {} before).tryAggregate call.1 call.2).1 = .ok (some sig) := by
  have alike : Runs.Throughout step Alike {} sampleCalls :=
    alike_of_keySets sampleShares_lawful (by simp [sampleCalls, sampleShare])
  refine (aggregates sampleShares_lawful sampleCalls alike).2 [] sampleCalls [] [0] [7, 0] {0, 1} rfl
    ?_ (by decide)
  intro index mem
  rcases Finset.mem_insert.mp mem with rfl | mem
  · exact ⟨sampleShare [7, 0] 0, by simp [sampleCalls], rfl, rfl, rfl⟩
  · obtain rfl := Finset.mem_singleton.mp mem
    exact ⟨sampleShare [7, 0] 1, by simp [sampleCalls], rfl, rfl, rfl⟩

/-- After a valid share of another key set with the same public key, the two shares of a key set give a
signature that is not valid, and none that is. -/
theorem mixed_shares_fail : ∃ first second third : SignatureAggregator sampleKeySets,
      tryAggregate {} [0] (sampleShare [7, 1] 5) = (.ok none, first) ∧
      first.tryAggregate [0] (sampleShare [7, 0] 0) = (.ok (some ⟨(7 : Nat), sampleSig 8 1⟩), second) ∧
      second.tryAggregate [0] (sampleShare [7, 0] 1) = (.ok none, third) ∧
      (⟨(7 : Nat), sampleSig 8 1⟩ : SectionSig sampleKeys).verify [0] = false :=
  ⟨_, _, _, rfl, rfl, rfl, rfl⟩

end SignatureAggregator

end SafeNetwork
