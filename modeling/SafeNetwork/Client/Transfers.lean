import SafeNetwork.Node.ElderCandidates
import SafeNetwork.Types.Fees

/-!
# Selecting inputs

`sn_client/src/api/transfers/mod.rs`: to send tokens, the client goes through its DBCs until those selected
cover what the recipients get and the fees of the elders, which are asked for DBC by DBC. `change_amount`
is what is still to be covered, and becomes what is left over with the last input.

Every step keeps the books balanced, and so the selected inputs are worth as much as the outputs and the
change.
-/

namespace SafeNetwork

open Std

/-- What transfers use of `sn_dbc`. -/
structure WalletScheme extends DbcScheme where
  Dbc : Type
  OwnerOnce : Type
  Rng : Type
  ClientError : Type
  /-- `Dbc::as_revealed_input_bearer` — the secret key and the amount. -/
  asRevealedInputBearer : Dbc → Except DbcError (SecretKey × RevealedAmount)
  revealedAmountBearer : Dbc → Except DbcError RevealedAmount
  /-- `OwnerOnce::from_owner_base` of the owner with a key. -/
  fromOwnerBase : PublicKey → Rng → OwnerOnce × Rng
  tokenText : Token → String

namespace WalletScheme

/-- What `Client::get_section_fees` returns for a DBC. -/
abbrev FeeAnswer (W : WalletScheme) : Type :=
  Except W.ClientError (ExtTreeMap (NodeId W.SocketAddr) (RequiredFee W.toDbcScheme))

def Bearers (W : WalletScheme) : Prop :=
  ∀ {dbc secretKey amount}, W.asRevealedInputBearer dbc = .ok (secretKey, amount) →
    W.revealedAmountBearer dbc = .ok amount

end WalletScheme

variable {W : WalletScheme}

/-- `transfers::Error`. -/
inductive TransfersError where
  | notEnoughBalance (text : String)
  | dbcReissueError (text : String)

/-- The fee of an elder with the owner it is paid to. -/
abbrev FeeCipherParams (W : WalletScheme) : Type :=
  ExtTreeMap XorName (RequiredFee W.toDbcScheme × W.OwnerOnce)

abbrev DecryptedFee (W : WalletScheme) : Type :=
  (NodeId W.SocketAddr × RequiredFee W.toDbcScheme) × Token

/-- The variables of `select_inputs`. -/
structure Selection (W : WalletScheme) where
  inputDbcsToSpend : List W.Dbc
  totalInputAmount : Token
  totalOutputAmount : Token
  recipients : List (Token × W.OwnerOnce)
  changeAmount : Token
  /-- The fees with the owners they are paid to, by the keys of the inputs. -/
  allFeeCipherParams : ExtTreeMap W.PublicKey (FeeCipherParams W)
  rng : W.Rng

/-- Decrypt the fees that elders ask for: those that can be, and the reward keys of the others. -/
def decryptFees (secretKey : W.SecretKey) :
    List (NodeId W.SocketAddr × RequiredFee W.toDbcScheme) →
      Except Panic (List (DecryptedFee W) × ExtTreeSet W.PublicKey)
  | [] => .ok ([], ∅)
  | (elder, fee) :: rest =>
    match fee.content.decryptAmount secretKey with
    | .error panic => .error panic
    | .ok outcome =>
      match decryptFees secretKey rest with
      | .error panic => .error panic
      | .ok (decrypted, invalid) =>
        match outcome with
        | .ok amount => .ok (((elder, fee), amount) :: decrypted, invalid)
        | .error _ => .ok (decrypted, invalid.insert fee.content.elderRewardKey)

structure Payments (W : WalletScheme) where
  recipients : List (Token × W.OwnerOnce)
  feeCipherParams : FeeCipherParams W
  rng : W.Rng

def Payments.pay (self : Payments W) : DecryptedFee W → Payments W
  | ((elder, requiredFee), fee) =>
    let (ownerOnce, rng) := W.fromOwnerBase requiredFee.content.elderRewardKey self.rng
    { recipients := self.recipients ++ [(fee, ownerOnce)]
      feeCipherParams := self.feeCipherParams.insert elder.name (requiredFee, ownerOnce)
      rng }

inductive FeeOutcome (W : WalletScheme) where
  | skipped
  | failed (error : TransfersError)
  | paid (feePerInput : Token) (after : Selection W)

abbrev ElderFees (W : WalletScheme) : Type :=
  List (NodeId W.SocketAddr × RequiredFee W.toDbcScheme)

def opens (secretKey : W.SecretKey) (fee : RequiredFee W.toDbcScheme) : Option Token :=
  match fee.content.decryptAmount secretKey with
  | .ok (.ok amount) => some amount
  | _ => none

def openedFees (secretKey : W.SecretKey) (fees : ElderFees W) : List (DecryptedFee W) :=
  fees.filterMap fun fee => (opens secretKey fee.2).map (fee, ·)

def unopenedKeys (secretKey : W.SecretKey) : ElderFees W → ExtTreeSet W.PublicKey
  | [] => ∅
  | (_, fee) :: rest =>
    match opens secretKey fee with
    | some _ => unopenedKeys secretKey rest
    | none => (unopenedKeys secretKey rest).insert fee.content.elderRewardKey

namespace Selection

/-- The fee part of the loop of `select_inputs`. -/
def feePart (self : Selection W) (secretKey : W.SecretKey) (answer : W.FeeAnswer) :
    Except Panic (FeeOutcome W) :=
  match answer with
  | .error _ => .ok .skipped
  | .ok elderFees =>
    let numResponses := elderFees.size
    let requiredResponses := supermajority W.elderCount
    if requiredResponses > numResponses then .ok .skipped
    else
      match decryptFees secretKey elderFees.toList with
      | .error panic => .error panic
      | .ok (decryptedElderFees, invalidFees) =>
        if W.elderCount < requiredResponses then .error .arithmetic
        else
          let maxInvalidFees := W.elderCount - requiredResponses
          if invalidFees.size > maxInvalidFees then
            if numResponses < invalidFees.size then .error .arithmetic else .ok .skipped
          else
            match Token.sum (decryptedElderFees.map (·.2)) with
            | none => .ok (.failed (.dbcReissueError ("Overflow occurred while summing the individual " ++
                "Elder's fees in order to calculate the total amount for the output DBCs.")))
            | some feePerInput =>
              let payments := decryptedElderFees.foldl Payments.pay ⟨self.recipients, ∅, self.rng⟩
              let inputKey := W.publicKeyOf secretKey
              .ok (.paid feePerInput { self with
                recipients := payments.recipients
                allFeeCipherParams := self.allFeeCipherParams.insert inputKey payments.feeCipherParams
                rng := payments.rng })

/-- The outputs and the fees after paying the elders whose fees can be decrypted. -/
def pays (self : Selection W) (secretKey : W.SecretKey)
    (elderFees : ExtTreeMap (NodeId W.SocketAddr) (RequiredFee W.toDbcScheme)) : Selection W :=
  let payments := (openedFees secretKey elderFees.toList).foldl Payments.pay ⟨self.recipients, ∅, self.rng⟩
  { self with
    recipients := payments.recipients
    allFeeCipherParams := self.allFeeCipherParams.insert (W.publicKeyOf secretKey) payments.feeCipherParams
    rng := payments.rng }

inductive Turn (W : WalletScheme) where
  | goOn (after : Selection W)
  | covered (after : Selection W)
  | failed (error : TransfersError)

/-- The part of the loop of `select_inputs` after the fees. -/
def spend (self : Selection W) (dbc : W.Dbc) (feePerInput : Token) : Except Panic (Turn W) :=
  match W.revealedAmountBearer dbc with
  | .error _ => .ok (.goOn self)
  | .ok revealedAmount =>
    let dbcBalance : Token := ⟨W.value revealedAmount⟩
    let inputDbcsToSpend := self.inputDbcsToSpend ++ [dbc]
    match self.totalInputAmount.checkedAdd dbcBalance with
    | none => .ok (.failed (.dbcReissueError ("Overflow occurred while increasing total input amount " ++
        "while trying to cover the output DBCs.")))
    | some totalInputAmount =>
      -- output amount now increases a bit, as we have to cover the fee as well, and so does the change
      match self.totalOutputAmount.checkedAdd feePerInput, self.changeAmount.checkedAdd feePerInput with
      | some totalOutputAmount, some changeAmount =>
        let self := { self with inputDbcsToSpend, totalInputAmount, totalOutputAmount }
        match changeAmount.checkedSub dbcBalance with
        | some pendingOutput =>
          let self := { self with changeAmount := pendingOutput }
          if pendingOutput.nano = 0 then .ok (.covered self) else .ok (.goOn self)
        | none =>
          if dbcBalance.nano.toNat < changeAmount.nano.toNat then .error .arithmetic
          else .ok (.covered { self with changeAmount := ⟨dbcBalance.nano - changeAmount.nano⟩ })
      | _, _ => .ok (.failed (.dbcReissueError ("Overflow occurred while adding mint fee in order to " ++
          "calculate the total amount for the output DBCs.")))

/-- One turn of the loop of `select_inputs`, for a DBC and what is answered to the query for its fees. -/
def turn (self : Selection W) (dbc : W.Dbc) (answer : W.FeeAnswer) : Except Panic (Turn W) :=
  match W.asRevealedInputBearer dbc with
  | .error _ => .ok (.goOn self)
  | .ok (secretKey, _) =>
    match self.feePart secretKey answer with
    | .error panic => .error panic
    | .ok .skipped => .ok (.goOn self)
    | .ok (.failed error) => .ok (.failed error)
    | .ok (.paid feePerInput paid) => paid.spend dbc feePerInput

/-- The loop of `select_inputs`. -/
def loop (self : Selection W) :
    List (W.Dbc × W.FeeAnswer) → Except Panic (Except TransfersError (Selection W))
  | [] => .ok (.ok self)
  | (dbc, answer) :: rest =>
    match self.turn dbc answer with
    | .error panic => .error panic
    | .ok (.goOn after) => after.loop rest
    | .ok (.covered after) => .ok (.ok after)
    | .ok (.failed error) => .ok (.error error)

end Selection

def verifyAmounts (W : WalletScheme) (totalInputAmount totalOutputAmount : Token) :
    Except TransfersError Unit :=
  if totalInputAmount.nano.toNat < totalOutputAmount.nano.toNat then
    .error (.notEnoughBalance (W.tokenText totalInputAmount))
  else .ok ()

/-- `ReissueInputs` — inputs, outputs, change and fees. -/
abbrev ReissueInputs (W : WalletScheme) : Type :=
  List W.Dbc × List (Token × W.OwnerOnce) × Token × ExtTreeMap W.PublicKey (FeeCipherParams W)

/-- `select_inputs`, each DBC with what is answered to the query for its fees. -/
def selectInputs (rng : W.Rng) (dbcs : List (W.Dbc × W.FeeAnswer))
    (recipients : List (Token × W.OwnerOnce)) :
    Except Panic (Except TransfersError (ReissueInputs W)) :=
  match Token.sum (recipients.map (·.1)) with
  | none => .ok (.error (.dbcReissueError
      "Overflow occurred while summing the output amounts for the output DBCs."))
  | some totalOutputAmount =>
    let start : Selection W := ⟨[], .zero, totalOutputAmount, recipients, totalOutputAmount, ∅, rng⟩
    match start.loop dbcs with
    | .error panic => .error panic
    | .ok (.error error) => .ok (.error error)
    | .ok (.ok final) =>
      match verifyAmounts W final.totalInputAmount final.totalOutputAmount with
      | .error error => .ok (.error error)
      | .ok () => .ok (.ok (final.inputDbcsToSpend, final.recipients, final.changeAmount,
          final.allFeeCipherParams))

/-! ## What is paid for an input -/

def worth (outputs : List (Token × W.OwnerOnce)) : Nat := (outputs.map (·.1.nano.toNat)).sum

def WalletScheme.balance (W : WalletScheme) (dbc : W.Dbc) : Nat :=
  match W.revealedAmountBearer dbc with
  | .ok amount => (W.value amount).toNat
  | .error _ => 0

/-- Outputs pay fees one by one, each to an owner derived from the reward key. -/
def Pays (decrypted : List (DecryptedFee W)) (outputs : List (Token × W.OwnerOnce)) : Prop :=
  List.Forall₂ (fun fee output => output.1 = fee.2 ∧
    ∃ rng, output.2 = (W.fromOwnerBase fee.1.2.content.elderRewardKey rng).1) decrypted outputs

/-- Each fee with an owner is one that the holder of a key can decrypt, and its amount goes to the owner. -/
def FeesPaid (key : W.PublicKey) (params : FeeCipherParams W) (outputs : List (Token × W.OwnerOnce)) :
    Prop :=
  ∃ secretKey, W.publicKeyOf secretKey = key ∧
    ∀ (name : XorName) fee owner, params[name]? = some (fee, owner) →
      ∃ amount, fee.content.decryptAmount secretKey = .ok (.ok amount) ∧ (amount, owner) ∈ outputs

def PaidFor (dbcs : List (W.Dbc × W.FeeAnswer)) (dbc : W.Dbc) (outputs : List (Token × W.OwnerOnce)) :
    Prop :=
  ∃ secretKey amount elderFees decrypted invalid,
    W.asRevealedInputBearer dbc = .ok (secretKey, amount) ∧ (dbc, .ok elderFees) ∈ dbcs ∧
      decryptFees secretKey elderFees.toList = .ok (decrypted, invalid) ∧ Pays decrypted outputs

theorem worth_append (one other : List (Token × W.OwnerOnce)) : worth (one ++ other) = worth one + worth other := by
  rw [worth, worth, worth, List.map_append, List.sum_append]

theorem Pays.worth_eq {decrypted : List (DecryptedFee W)} {outputs : List (Token × W.OwnerOnce)}
    (pays : Pays decrypted outputs) : worth outputs = (decrypted.map (·.2.nano.toNat)).sum := by
  induction pays with
  | nil => rfl
  | cons paid _ ih =>
    rw [worth] at ih ⊢
    rw [List.map_cons, List.map_cons, List.sum_cons, List.sum_cons, ih, paid.1]

theorem decryptFees_mem {secretKey : W.SecretKey}
    {fees : List (NodeId W.SocketAddr × RequiredFee W.toDbcScheme)} {decrypted : List (DecryptedFee W)}
    {invalid : ExtTreeSet W.PublicKey} (outcome : decryptFees secretKey fees = .ok (decrypted, invalid))
    {fee : DecryptedFee W} (mem : fee ∈ decrypted) : fee.1.2.content.decryptAmount secretKey = .ok (.ok fee.2) := by
  induction fees generalizing decrypted invalid with
  | nil =>
    obtain ⟨rfl, -⟩ := Prod.mk.inj (Except.ok.inj outcome)
    cases mem
  | cons entry rest ih =>
    obtain ⟨elder, required⟩ := entry
    rw [decryptFees] at outcome
    split at outcome
    · cases outcome
    · rename_i first opened
      split at outcome
      · cases outcome
      · rename_i later invalidLater others
        split at outcome
        · obtain ⟨rfl, -⟩ := Prod.mk.inj (Except.ok.inj outcome)
          rcases List.mem_cons.mp mem with rfl | mem
          · exact opened
          · exact ih others mem
        · obtain ⟨rfl, -⟩ := Prod.mk.inj (Except.ok.inj outcome)
          exact ih others mem

theorem decryptFees_invalid_size {secretKey : W.SecretKey}
    {fees : List (NodeId W.SocketAddr × RequiredFee W.toDbcScheme)} {decrypted : List (DecryptedFee W)}
    {invalid : ExtTreeSet W.PublicKey}
    (outcome : decryptFees secretKey fees = .ok (decrypted, invalid)) : invalid.size ≤ fees.length := by
  induction fees generalizing decrypted invalid with
  | nil =>
    obtain ⟨-, rfl⟩ := Prod.mk.inj (Except.ok.inj outcome)
    simp
  | cons entry rest ih =>
    obtain ⟨elder, required⟩ := entry
    rw [decryptFees] at outcome
    split at outcome
    · cases outcome
    · split at outcome
      · cases outcome
      · rename_i later invalidLater others
        have bound := ih others
        rw [List.length_cons]
        split at outcome
        · obtain ⟨-, rfl⟩ := Prod.mk.inj (Except.ok.inj outcome)
          omega
        · obtain ⟨-, rfl⟩ := Prod.mk.inj (Except.ok.inj outcome)
          have grown : (invalidLater.insert required.content.elderRewardKey).size ≤
              invalidLater.size + 1 := ExtTreeSet.size_insert_le
          omega

theorem Payments.pay_run (start : Payments W) (decrypted : List (DecryptedFee W)) :
    ∃ outputs, (decrypted.foldl pay start).recipients = start.recipients ++ outputs ∧
      Pays decrypted outputs ∧
      ∀ (name : XorName) fee owner, (decrypted.foldl pay start).feeCipherParams[name]? = some (fee, owner) →
        start.feeCipherParams[name]? = some (fee, owner) ∨
          ∃ paid ∈ decrypted, paid.1.2 = fee ∧ (paid.2, owner) ∈ outputs := by
  induction decrypted generalizing start with
  | nil => exact ⟨[], by simp, .nil, fun _ _ _ => .inl⟩
  | cons first rest ih =>
    obtain ⟨⟨elder, required⟩, amount⟩ := first
    obtain ⟨outputs, added, pays, listed⟩ := ih (start.pay ((elder, required), amount))
    refine ⟨(amount, (W.fromOwnerBase required.content.elderRewardKey start.rng).1) :: outputs, ?_,
      .cons ⟨rfl, start.rng, rfl⟩ pays, fun name fee owner found => ?_⟩
    · rw [List.foldl_cons, added, pay, List.append_assoc]
      rfl
    · rcases listed name fee owner found with earlier | ⟨paid, mem, same, output⟩
      · rw [pay, ExtTreeMap.getElem?_insert] at earlier
        split at earlier
        · obtain ⟨rfl, rfl⟩ := Prod.mk.inj (Option.some.inj earlier)
          exact .inr ⟨_, List.mem_cons_self .., rfl, List.mem_cons_self ..⟩
        · exact .inl earlier
      · exact .inr ⟨paid, List.mem_cons_of_mem _ mem, same, List.mem_cons_of_mem _ output⟩

namespace Selection

variable {before after : Selection W} {dbcs : List (W.Dbc × W.FeeAnswer)}
  {recipients : List (Token × W.OwnerOnce)} {dbc : W.Dbc} {answer : W.FeeAnswer}
  {secretKey : W.SecretKey} {feePerInput : Token}

/-- What the fee part changes: outputs that pay the fees are added, and kept by the key of the input. -/
structure Paid (before : Selection W) (secretKey : W.SecretKey) (answer : W.FeeAnswer)
    (feePerInput : Token) (after : Selection W) where
  elderFees : ExtTreeMap (NodeId W.SocketAddr) (RequiredFee W.toDbcScheme)
  answered : answer = .ok elderFees
  decrypted : List (DecryptedFee W)
  invalid : ExtTreeSet W.PublicKey
  decrypts : decryptFees secretKey elderFees.toList = .ok (decrypted, invalid)
  outputs : List (Token × W.OwnerOnce)
  pays : Pays decrypted outputs
  fee : feePerInput.nano.toNat = worth outputs
  params : FeeCipherParams W
  paid : FeesPaid (W.publicKeyOf secretKey) params outputs
  rng : W.Rng
  after_eq : after = { before with
    recipients := before.recipients ++ outputs
    allFeeCipherParams := before.allFeeCipherParams.insert (W.publicKeyOf secretKey) params
    rng }

theorem paid_of_feePart (outcome : before.feePart secretKey answer = .ok (.paid feePerInput after)) :
    Nonempty (Paid before secretKey answer feePerInput after) := by
  cases answer with
  | error => cases outcome
  | ok elderFees =>
    rw [feePart] at outcome
    dsimp only at outcome
    split at outcome
    · cases outcome
    · split at outcome
      · cases outcome
      · rename_i decrypted invalid decrypts
        split_ifs at outcome
        · cases outcome
        · split at outcome
          · cases outcome
          · rename_i total summed
            obtain ⟨rfl, rfl⟩ := FeeOutcome.paid.inj (Except.ok.inj outcome)
            obtain ⟨outputs, added, pays, listed⟩ :=
              Payments.pay_run ⟨before.recipients, ∅, before.rng⟩ decrypted
            have fee : total.nano.toNat = worth outputs := by
              rw [Token.toNat_of_sum summed, pays.worth_eq, List.map_map]
              rfl
            refine ⟨⟨elderFees, rfl, decrypted, invalid, decrypts, outputs, pays, fee, _,
              ⟨secretKey, rfl, fun name fee owner found => ?_⟩, _, by rw [added]⟩⟩
            rcases listed name fee owner found with none | ⟨paid, mem, rfl, output⟩
            · simp at none
            · exact ⟨paid.2, decryptFees_mem decrypts mem, output⟩

structure Booked (dbcs : List (W.Dbc × W.FeeAnswer)) (recipients : List (Token × W.OwnerOnce))
    (current : Selection W) : Prop where
  inputs : (current.inputDbcsToSpend.map W.balance).sum = current.totalInputAmount.nano.toNat
  outputs : worth current.recipients = current.totalOutputAmount.nano.toNat
  /-- The outputs are the requested ones, and those that pay for the inputs. -/
  payments : ∃ payments, current.recipients = recipients ++ payments.flatten ∧
    List.Forall₂ (PaidFor dbcs) current.inputDbcsToSpend payments
  keyed : ∀ dbc ∈ current.inputDbcsToSpend, ∃ secretKey amount,
    W.asRevealedInputBearer dbc = .ok (secretKey, amount) ∧
      W.publicKeyOf secretKey ∈ current.allFeeCipherParams
  paid : ∀ (key : W.PublicKey) params, current.allFeeCipherParams[key]? = some params →
    FeesPaid key params current.recipients

def Pending (self : Selection W) : Prop :=
  self.totalInputAmount.nano.toNat + self.changeAmount.nano.toNat = self.totalOutputAmount.nano.toNat

def Covered (self : Selection W) : Prop :=
  self.totalInputAmount.nano.toNat = self.totalOutputAmount.nano.toNat + self.changeAmount.nano.toNat

/-- What is done with a DBC whose fees are among the outputs. -/
inductive Spent (before : Selection W) (dbc : W.Dbc) (feePerInput : Token) : Turn W → Prop where
  | failed (error : TransfersError) : Spent before dbc feePerInput (.failed error)
  | goOn (totalInput totalOutput change : Token)
    (input : totalInput.nano.toNat = before.totalInputAmount.nano.toNat + W.balance dbc)
    (output : totalOutput.nano.toNat = before.totalOutputAmount.nano.toNat + feePerInput.nano.toNat)
    (pending : change.nano.toNat + W.balance dbc =
      before.changeAmount.nano.toNat + feePerInput.nano.toNat) :
    Spent before dbc feePerInput (.goOn { before with
      inputDbcsToSpend := before.inputDbcsToSpend ++ [dbc]
      totalInputAmount := totalInput
      totalOutputAmount := totalOutput
      changeAmount := change })
  | covered (totalInput totalOutput change : Token)
    (input : totalInput.nano.toNat = before.totalInputAmount.nano.toNat + W.balance dbc)
    (output : totalOutput.nano.toNat = before.totalOutputAmount.nano.toNat + feePerInput.nano.toNat)
    (left : W.balance dbc =
      before.changeAmount.nano.toNat + feePerInput.nano.toNat + change.nano.toNat) :
    Spent before dbc feePerInput (.covered { before with
      inputDbcsToSpend := before.inputDbcsToSpend ++ [dbc]
      totalInputAmount := totalInput
      totalOutputAmount := totalOutput
      changeAmount := change })

theorem spend_spent (before : Selection W) (feePerInput : Token) {amount : W.RevealedAmount}
    (known : W.revealedAmountBearer dbc = .ok amount) :
    ∃ turn, before.spend dbc feePerInput = .ok turn ∧ Spent before dbc feePerInput turn := by
  have balance : W.balance dbc = (W.value amount).toNat := by rw [WalletScheme.balance, known]
  rw [spend, known]
  dsimp only
  split
  · exact ⟨_, rfl, .failed _⟩
  · rename_i totalInput addedInput
    have input := Token.toNat_of_checkedAdd addedInput
    dsimp only at input
    rw [← balance] at input
    split
    · rename_i totalOutput change addedOutput addedChange
      have output := Token.toNat_of_checkedAdd addedOutput
      have toCover := Token.toNat_of_checkedAdd addedChange
      split
      · rename_i pending subtracted
        have rest := Token.toNat_of_checkedSub subtracted
        dsimp only at rest
        rw [← balance, toCover] at rest
        split_ifs with none
        · refine ⟨_, rfl, .covered totalInput totalOutput pending input output ?_⟩
          have zero : pending.nano.toNat = 0 := by rw [none]; rfl
          omega
        · exact ⟨_, rfl, .goOn totalInput totalOutput pending input output rest⟩
      · rename_i refused
        have more := Token.lt_of_checkedSub refused
        dsimp only at more
        rw [if_neg (by omega)]
        refine ⟨_, rfl, .covered totalInput totalOutput _ input output ?_⟩
        dsimp only
        rw [UInt64.toNat_sub_of_le _ _ (UInt64.le_iff_toNat_le.mpr more.le)]
        omega
    · exact ⟨_, rfl, .failed _⟩

theorem feesPaid_append {key : W.PublicKey} {params : FeeCipherParams W}
    {outputs : List (Token × W.OwnerOnce)} (paid : FeesPaid key params outputs)
    {all : List (Token × W.OwnerOnce)} (among : outputs ⊆ all) : FeesPaid key params all := by
  obtain ⟨secretKey, same, listed⟩ := paid
  refine ⟨secretKey, same, fun name fee owner found => ?_⟩
  obtain ⟨amount, decrypts, mem⟩ := listed name fee owner found
  exact ⟨amount, decrypts, among mem⟩

theorem Booked.add (booked : before.Booked dbcs recipients) {amount : W.RevealedAmount}
    (bearer : W.asRevealedInputBearer dbc = .ok (secretKey, amount)) (listed : (dbc, answer) ∈ dbcs)
    {paid : Selection W} (fees : Paid before secretKey answer feePerInput paid)
    {totalInput totalOutput change : Token}
    (input : totalInput.nano.toNat = paid.totalInputAmount.nano.toNat + W.balance dbc)
    (output : totalOutput.nano.toNat = paid.totalOutputAmount.nano.toNat + feePerInput.nano.toNat) :
    Booked dbcs recipients { paid with
      inputDbcsToSpend := paid.inputDbcsToSpend ++ [dbc]
      totalInputAmount := totalInput
      totalOutputAmount := totalOutput
      changeAmount := change } := by
  obtain ⟨elderFees, rfl, decrypted, invalid, decrypts, outputs, pays, fee, params, feesPaid, rng, rfl⟩ :=
    fees
  dsimp only at input output ⊢
  refine ⟨?_, ?_, ?_, ?_, ?_⟩
  · simp only [List.map_append, List.map_cons, List.map_nil, List.sum_append, List.sum_cons,
      List.sum_nil, Nat.add_zero]
    rw [booked.inputs, input]
  · rw [worth_append, booked.outputs, ← fee, output]
  · obtain ⟨payments, all, forInputs⟩ := booked.payments
    refine ⟨payments ++ [outputs], by simp [all], ?_⟩
    exact List.rel_append forInputs
      (.cons ⟨secretKey, amount, elderFees, decrypted, invalid, bearer, listed, decrypts, pays⟩ .nil)
  · intro other mem
    rcases List.mem_append.mp mem with earlier | last
    · obtain ⟨key, worthOther, bearerOther, found⟩ := booked.keyed other earlier
      exact ⟨key, worthOther, bearerOther, ExtTreeMap.mem_insert.mpr (.inr found)⟩
    · obtain rfl := List.mem_singleton.mp last
      exact ⟨secretKey, amount, bearer, ExtTreeMap.mem_insert_self⟩
  · intro key keyParams found
    rw [ExtTreeMap.getElem?_insert] at found
    split at found
    · rename_i same
      obtain rfl := Std.compare_eq_iff_eq.mp same
      obtain rfl := Option.some.inj found
      exact feesPaid_append feesPaid (List.subset_append_right ..)
    · exact feesPaid_append (booked.paid key keyParams found) (List.subset_append_left ..)

/-- The books agree, and the change amount is what is to be covered or left over. -/
inductive Kept (dbcs : List (W.Dbc × W.FeeAnswer)) (recipients : List (Token × W.OwnerOnce)) :
    Turn W → Prop where
  | goOn {after : Selection W} (booked : after.Booked dbcs recipients) (pending : after.Pending) :
    Kept dbcs recipients (.goOn after)
  | covered {after : Selection W} (booked : after.Booked dbcs recipients) (covered : after.Covered) :
    Kept dbcs recipients (.covered after)
  | failed (error : TransfersError) : Kept dbcs recipients (.failed error)

theorem turn_kept (bearers : W.Bearers) (booked : before.Booked dbcs recipients)
    (pending : before.Pending) (listed : (dbc, answer) ∈ dbcs) {turn : Turn W}
    (outcome : before.turn dbc answer = .ok turn) : Kept dbcs recipients turn := by
  rw [Selection.turn] at outcome
  split at outcome
  · obtain rfl := Except.ok.inj outcome
    exact .goOn booked pending
  · rename_i secretKey amount bearer
    split at outcome
    · cases outcome
    · obtain rfl := Except.ok.inj outcome
      exact .goOn booked pending
    · obtain rfl := Except.ok.inj outcome
      exact .failed _
    · rename_i feePerInput paid feeOutcome
      obtain ⟨fees⟩ := paid_of_feePart feeOutcome
      obtain ⟨turn', spends, spent⟩ := paid.spend_spent feePerInput (bearers bearer)
      obtain rfl := Except.ok.inj (spends.symm.trans outcome)
      -- The fee part changes none of the amounts.
      have inputSame : paid.totalInputAmount = before.totalInputAmount := by rw [fees.after_eq]
      have outputSame : paid.totalOutputAmount = before.totalOutputAmount := by rw [fees.after_eq]
      have changeSame : paid.changeAmount = before.changeAmount := by rw [fees.after_eq]
      rw [Pending, ← inputSame, ← outputSame, ← changeSame] at pending
      cases spent with
      | failed error => exact .failed error
      | goOn totalInput totalOutput change input output rest =>
        refine .goOn (booked.add bearer listed fees input output) ?_
        rw [Pending]
        dsimp only
        omega
      | covered totalInput totalOutput change input output left =>
        refine .covered (booked.add bearer listed fees input output) ?_
        rw [Covered]
        dsimp only
        omega

theorem loop_kept (bearers : W.Bearers) (booked : before.Booked dbcs recipients)
    (pending : before.Pending) {rest : List (W.Dbc × W.FeeAnswer)} (listed : rest ⊆ dbcs)
    (outcome : before.loop rest = .ok (.ok after)) :
    after.Booked dbcs recipients ∧ (after.Pending ∨ after.Covered) := by
  induction rest generalizing before with
  | nil =>
    obtain rfl := Except.ok.inj (Except.ok.inj outcome)
    exact ⟨booked, .inl pending⟩
  | cons next rest ih =>
    obtain ⟨dbc, answer⟩ := next
    obtain ⟨here, later⟩ := List.cons_subset.mp listed
    rw [loop] at outcome
    cases turned : before.turn dbc answer with
    | error panic => simp [turned] at outcome
    | ok turn =>
      rw [turned] at outcome
      cases turn_kept bearers booked pending here turned with
      | goOn booked pending => exact ih booked pending later outcome
      | covered booked covered =>
        obtain rfl := Except.ok.inj (Except.ok.inj outcome)
        exact ⟨booked, .inr covered⟩
      | failed error => cases Except.ok.inj outcome

/-! ## Numbers in range -/

theorem decryptFees_in_range (secretKey : W.SecretKey)
    (fees : List (NodeId W.SocketAddr × RequiredFee W.toDbcScheme)) :
    decryptFees secretKey fees ≠ .error .arithmetic := by
  induction fees with
  | nil => simp [decryptFees]
  | cons entry rest ih =>
    obtain ⟨elder, fee⟩ := entry
    rw [decryptFees]
    split
    · rename_i panic sliced
      rintro ⟨⟩
      rw [RequiredFeeContent.decryptAmount] at sliced
      split at sliced
      · cases sliced
      · split at sliced <;> cases sliced
    · split
      · rename_i panic panics
        rwa [panics] at ih
      · split <;> simp

theorem feePart_in_range (elders : 0 < W.elderCount) (before : Selection W) (secretKey : W.SecretKey)
    (answer : W.FeeAnswer) : before.feePart secretKey answer ≠ .error .arithmetic := by
  cases answer with
  | error => simp [feePart]
  | ok elderFees =>
    rw [feePart]
    dsimp only
    split
    · simp
    · split
      · rename_i panic panics
        rintro ⟨⟩
        exact decryptFees_in_range secretKey elderFees.toList panics
      · rename_i decrypted invalid decrypts
        have quorum : ¬ W.elderCount < supermajority W.elderCount := by
          rw [supermajority, threshold]
          omega
        have fewer : ¬ elderFees.size < invalid.size := by
          have bound := decryptFees_invalid_size decrypts
          rw [ExtTreeMap.length_toList] at bound
          omega
        rw [if_neg quorum, if_neg fewer]
        split
        · simp
        · split <;> simp

theorem loop_in_range (elders : 0 < W.elderCount) (before : Selection W)
    (rest : List (W.Dbc × W.FeeAnswer)) : before.loop rest ≠ .error .arithmetic := by
  induction rest generalizing before with
  | nil => simp [loop]
  | cons next rest ih =>
    obtain ⟨dbc, answer⟩ := next
    have inRange : before.turn dbc answer ≠ .error .arithmetic := by
      rw [turn]
      split
      · simp
      · rename_i secretKey amount bearer
        have fees := feePart_in_range elders before secretKey answer
        split
        · rename_i panic panics
          rintro ⟨⟩
          exact fees panics
        · simp
        · simp
        · rename_i feePerInput paid _
          cases known : W.revealedAmountBearer dbc with
          | error => simp [spend, known]
          | ok amount =>
            obtain ⟨turn, spends, -⟩ := paid.spend_spent feePerInput known
            simp [spends]
    rw [loop]
    split
    · rename_i panic panics
      rintro ⟨⟩
      exact inRange panics
    · exact ih _
    · simp
    · simp

end Selection

/-- If inputs are selected, they are worth as much as the outputs and the change; each of them has fees,
which are among the outputs; and every output is a requested one or pays a fee for one of them. No number
is out of range, if there are elders. -/
theorem selectInputs_balanced (bearers : W.Bearers) (rng : W.Rng) (dbcs : List (W.Dbc × W.FeeAnswer))
    (recipients : List (Token × W.OwnerOnce)) : (∀ inputs outputs change params,
      selectInputs rng dbcs recipients = .ok (.ok (inputs, outputs, change, params)) →
        (inputs.map W.balance).sum = worth outputs + change.nano.toNat ∧
        (∀ dbc ∈ inputs, ∃ secretKey amount fees, W.asRevealedInputBearer dbc = .ok (secretKey, amount) ∧
          params[W.publicKeyOf secretKey]? = some fees ∧
          FeesPaid (W.publicKeyOf secretKey) fees outputs) ∧
        ∃ payments, outputs = recipients ++ payments.flatten ∧
          List.Forall₂ (PaidFor dbcs) inputs payments) ∧
      (0 < W.elderCount → selectInputs rng dbcs recipients ≠ .error .arithmetic) := by
  rw [selectInputs]
  cases summed : Token.sum (recipients.map (·.1)) with
  | none => simp
  | some total =>
    dsimp only
    have booked : Selection.Booked dbcs recipients
        (⟨[], .zero, total, recipients, total, ∅, rng⟩ : Selection W) := by
      refine ⟨rfl, ?_, ⟨[], by simp, .nil⟩, by simp, by simp⟩
      rw [Token.toNat_of_sum summed, List.map_map]
      rfl
    have pending : Selection.Pending (⟨[], .zero, total, recipients, total, ∅, rng⟩ : Selection W) :=
      Nat.zero_add _
    constructor
    · intro inputs outputs change params outcome
      split at outcome
      · cases outcome
      · cases Except.ok.inj outcome
      · rename_i final looped
        obtain ⟨books, books'⟩ := Selection.loop_kept bearers booked pending (List.Subset.refl _) looped
        split at outcome
        · cases Except.ok.inj outcome
        · rename_i verified
          obtain ⟨rfl, rfl, rfl, rfl⟩ : _ ∧ _ ∧ _ ∧ _ := by
            simpa only [Prod.mk.injEq] using Except.ok.inj (Except.ok.inj outcome)
          -- The loop ends with the outputs covered, or with nothing left to cover.
          have enough : final.totalOutputAmount.nano.toNat ≤ final.totalInputAmount.nano.toNat := by
            rw [verifyAmounts] at verified
            split_ifs at verified with short
            omega
          refine ⟨?_, fun dbc mem => ?_, books.payments⟩
          · rw [books.inputs, books.outputs]
            rcases books' with pending | covered
            · rw [Selection.Pending] at pending
              omega
            · exact covered
          · obtain ⟨secretKey, amount, bearer, keyed⟩ := books.keyed dbc mem
            obtain ⟨fees, found⟩ := Option.isSome_iff_exists.mp
              (ExtTreeMap.mem_iff_isSome_getElem?.mp keyed)
            exact ⟨secretKey, amount, fees, bearer, found, books.paid _ fees found⟩
    · intro elders
      have inRange := Selection.loop_in_range elders ⟨[], .zero, total, recipients, total, ∅, rng⟩ dbcs
      split
      · rename_i panic panics
        rintro ⟨⟩
        exact inRange panics
      · simp
      · split <;> simp

/-! ## A sample wallet -/

abbrev sampleWallet : WalletScheme where
  toDbcScheme := sampleDbcs
  Dbc := Nat × UInt64
  OwnerOnce := Nat × Nat
  Rng := Nat
  ClientError := Unit
  asRevealedInputBearer dbc := .ok dbc
  revealedAmountBearer dbc := .ok dbc.2
  fromOwnerBase key rng := ((key, rng), rng + 1)
  tokenText amount := toString amount.nano

theorem sampleWallet_bearers : sampleWallet.Bearers := by
  rintro dbc secretKey amount ⟨⟩
  rfl

def sampleFees : sampleWallet.FeeAnswer :=
  let fee : RequiredFee sampleDbcs :=
    ⟨⟨((4 : Nat), [2, 0, 0, 0, 0, 0, 0, 0]), (9 : Nat)⟩, sampleSig 9 0⟩
  .ok (.ofList [(sampleNodeId [true] 1, fee)])

/-- What is selected to pay five nanos with a DBC of one nano and one of ten: inputs, outputs and
change. -/
def sampleSelected : Option (List (Nat × UInt64) × List (Token × Nat × Nat) × Token) :=
  match selectInputs (W := sampleWallet) (0 : Nat) [((3, 1), .error ()), ((4, 10), sampleFees)]
    [(⟨5⟩, (7, 7))] with
  | .ok (.ok (inputs, outputs, change, _)) => some (inputs, outputs, change)
  | _ => none

theorem selectInputs_balanced_sampleFees : sampleSelected = some ([(4, 10)], [(⟨5⟩, 7, 7), (⟨2⟩, 9, 0)], ⟨3⟩) ∧
      (([(4, 10)] : List (Nat × UInt64)).map sampleWallet.balance).sum =
        worth (W := sampleWallet) [(⟨5⟩, 7, 7), (⟨2⟩, 9, 0)] + (⟨3⟩ : Token).nano.toNat := by
  have computed : sampleSelected = some ([(4, 10)], [(⟨5⟩, 7, 7), (⟨2⟩, 9, 0)], ⟨3⟩) := by
    decide +kernel
  refine ⟨computed, ?_⟩
  rw [sampleSelected] at computed
  split at computed
  · rename_i inputs outputs change params selected
    have balanced := ((selectInputs_balanced sampleWallet_bearers _ _ _).1 _ _ _ _ selected).1
    obtain ⟨rfl, rfl, rfl⟩ : inputs = _ ∧ outputs = _ ∧ change = _ := by
      simpa only [Prod.mk.injEq] using Option.some.inj computed
    exact balanced
  · cases computed

end SafeNetwork
