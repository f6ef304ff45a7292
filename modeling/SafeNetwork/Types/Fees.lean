import SafeNetwork.NetworkKnowledge.SampleNodes

/-!
# Fees

`types/fees`: an elder asks for a fee before it signs a spend. It encrypts the amount to the key of the
DBC to be spent (`RequiredFee`), and the client says with two ciphers where in the transaction the fee is
paid (`FeeCiphers`). What is decrypted is sliced, and may be too short for that.
-/

namespace SafeNetwork

inductive Panic where
  | sliceOutOfRange
  | arithmetic
deriving DecidableEq

/-! ## Tokens -/

structure Token where
  nano : UInt64
deriving DecidableEq

namespace Token

def zero : Token := ⟨0⟩

def checkedAdd (self rhs : Token) : Option Token :=
  if self.nano.toNat + rhs.nano.toNat < 2 ^ 64 then some ⟨self.nano + rhs.nano⟩ else none

def checkedSub (self rhs : Token) : Option Token :=
  if rhs.nano.toNat ≤ self.nano.toNat then some ⟨self.nano - rhs.nano⟩ else none

def sum (amounts : List Token) : Option Token := amounts.foldlM checkedAdd zero

variable {self rhs result : Token}

theorem toNat_of_checkedAdd (added : self.checkedAdd rhs = some result) :
    result.nano.toNat = self.nano.toNat + rhs.nano.toNat := by
  rw [checkedAdd] at added
  split_ifs at added with fits
  obtain rfl := Option.some.inj added
  rw [UInt64.toNat_add, Nat.mod_eq_of_lt fits]

theorem zero_checkedAdd (amount : Token) : zero.checkedAdd amount = some amount := by
  have fits : zero.nano.toNat + amount.nano.toNat < 2 ^ 64 := by
    have := amount.nano.toNat_lt
    simpa [zero] using this
  rw [checkedAdd, if_pos fits, zero, UInt64.zero_add]

theorem toNat_of_checkedSub (subtracted : self.checkedSub rhs = some result) :
    result.nano.toNat + rhs.nano.toNat = self.nano.toNat := by
  rw [checkedSub] at subtracted
  split_ifs at subtracted with covers
  obtain rfl := Option.some.inj subtracted
  rw [UInt64.toNat_sub_of_le _ _ (UInt64.le_iff_toNat_le.mpr covers)]
  omega

theorem lt_of_checkedSub (refused : self.checkedSub rhs = none) : self.nano.toNat < rhs.nano.toNat := by
  rw [checkedSub] at refused
  split_ifs at refused with covers
  omega

theorem toNat_of_sum {amounts : List Token} {total : Token} (summed : sum amounts = some total) :
    total.nano.toNat = (amounts.map (·.nano.toNat)).sum := by
  -- The accumulator is the sum so far.
  have general : ∀ start, amounts.foldlM checkedAdd start = some total →
      total.nano.toNat = start.nano.toNat + (amounts.map (·.nano.toNat)).sum := by
    clear summed
    induction amounts with
    | nil =>
      intro start summed
      obtain rfl := Option.some.inj summed
      simp
    | cons amount rest ih =>
      intro start summed
      rw [List.foldlM_cons] at summed
      obtain ⟨next, added, summed⟩ := Option.bind_eq_some_iff.mp summed
      rw [ih next summed, toNat_of_checkedAdd added, List.map_cons, List.sum_cons, Nat.add_assoc]
  rw [general zero summed]
  exact Nat.zero_add _

end Token

/-! ## Required fees and fee ciphers -/

/-- What fees use of the crates: encryption (`blsttc`) and amounts (`sn_dbc`). -/
structure DbcScheme extends NodeScheme where
  SecretKey : Type
  Ciphertext : Type
  RevealedAmount : Type
  BlindedAmount : Type
  DbcError : Type
  [decidableEqBlindedAmount : DecidableEq BlindedAmount]
  publicKeyOf : SecretKey → PublicKey
  decrypt : SecretKey → Ciphertext → Option (List UInt8)
  decryptionBySecretKeyFailed : DbcError
  /-- `Owner::derive` with an index, and its secret key. -/
  derive : SecretKey → List UInt8 → Except DbcError SecretKey
  /-- `RevealedAmount::try_from` a secret key and a cipher. -/
  revealAmount : SecretKey → Ciphertext → Except DbcError RevealedAmount
  value : RevealedAmount → UInt64
  blindedAmount : RevealedAmount → BlindedAmount

attribute [instance] DbcScheme.decidableEqBlindedAmount

variable {D : DbcScheme}

/-- `fees::Error`. -/
inductive FeesError (D : DbcScheme) where
  | amountDecryptionFailed
  | dbc (error : D.DbcError)

structure RequiredFeeContent (D : DbcScheme) where
  amountCipher : D.Ciphertext
  elderRewardKey : D.PublicKey

structure RequiredFee (D : DbcScheme) where
  content : RequiredFeeContent D
  elderRewardKeySig : D.Signature

def fromLeBytes (bytes : List UInt8) : UInt64 :=
  UInt64.ofNat (bytes.foldr (fun byte rest => byte.toNat + 256 * rest) 0)

def RequiredFeeContent.decryptAmount (self : RequiredFeeContent D) (dbcSecretKey : D.SecretKey) :
    Except Panic (Except (FeesError D) Token) :=
  match D.decrypt dbcSecretKey self.amountCipher with
  | none => .ok (.error .amountDecryptionFailed)
  | some bytes =>
    if bytes.length < 8 then .error .sliceOutOfRange
    else .ok (.ok ⟨fromLeBytes (bytes.take 8)⟩)

structure FeeCiphers (D : DbcScheme) where
  amount : D.Ciphertext
  derivationIndex : D.Ciphertext

def FeeCiphers.decryptDerivationIndex (self : FeeCiphers D) (elderRewardSecret : D.SecretKey) :
    Except Panic (Except (FeesError D) (List UInt8)) :=
  match D.decrypt elderRewardSecret self.derivationIndex with
  | none => .ok (.error (.dbc D.decryptionBySecretKeyFailed))
  | some bytes =>
    if bytes.length < 32 then .error .sliceOutOfRange else .ok (.ok (bytes.take 32))

/-- `FeeCiphers::decrypt` — the derived key and the amount. -/
def FeeCiphers.decrypt (self : FeeCiphers D) (elderRewardSecret : D.SecretKey) :
    Except Panic (Except (FeesError D) (D.PublicKey × D.RevealedAmount)) :=
  match self.decryptDerivationIndex elderRewardSecret with
  | .error panic => .error panic
  | .ok (.error error) => .ok (.error error)
  | .ok (.ok derivationIndex) =>
    match D.derive elderRewardSecret derivationIndex with
    | .error error => .ok (.error (.dbc error))
    | .ok derivedSk =>
      match D.revealAmount derivedSk self.amount with
      | .error error => .ok (.error (.dbc error))
      | .ok amount => .ok (.ok (D.publicKeyOf derivedSk, amount))

/-- DBCs over the sample nodes: a key decrypts what names it, an index adds its first byte to a key, and an
amount is encrypted by as many bytes. -/
abbrev sampleDbcs : DbcScheme where
  toNodeScheme := sampleNodeScheme
  SecretKey := Nat
  Ciphertext := Nat × List UInt8
  RevealedAmount := UInt64
  BlindedAmount := UInt64
  DbcError := Unit
  publicKeyOf secretKey := secretKey
  decrypt secretKey cipher := if cipher.1 = secretKey then some cipher.2 else none
  decryptionBySecretKeyFailed := ()
  derive secretKey index := .ok (secretKey + (index.headD 0).toNat)
  revealAmount secretKey cipher :=
    if cipher.1 = secretKey then .ok (UInt64.ofNat cipher.2.length) else .error ()
  value amount := amount
  blindedAmount amount := amount

end SafeNetwork
