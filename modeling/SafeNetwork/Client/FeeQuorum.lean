import SafeNetwork.Client.Transfers

/-!
# Fees for a quorum

A spend is of use only when a supermajority of the elders of a section sign it, and an elder signs what
pays its fee. So an input that `select_inputs` selects should pay as many elders. The loop does not count
those that it pays: it counts the reward keys of the answers that it cannot decrypt, each key once, and
compares them with all elders instead of those that answered.
-/

namespace SafeNetwork

open Std

variable {W : WalletScheme}

def Readable (secretKey : W.SecretKey) (fees : ElderFees W) : Prop :=
  ∀ fee ∈ fees, ∀ panic, fee.2.content.decryptAmount secretKey ≠ .error panic

variable {secretKey : W.SecretKey} {fees : ElderFees W}

theorem decryptFees_readable (readable : Readable secretKey fees) :
    decryptFees secretKey fees = .ok (openedFees secretKey fees, unopenedKeys secretKey fees) := by
  induction fees with
  | nil => rfl
  | cons entry rest ih =>
    obtain ⟨elder, fee⟩ := entry
    have later := ih fun fee mem => readable fee (List.mem_cons_of_mem _ mem)
    have first := readable (elder, fee) (List.mem_cons_self ..)
    dsimp only at first
    simp only [decryptFees, later, openedFees, List.filterMap_cons, unopenedKeys, opens]
    cases opened : fee.content.decryptAmount secretKey with
    | error panic => exact absurd opened (first panic)
    | ok outcome => cases outcome <;> rfl

theorem decryptFees_unreadable (unreadable : ¬ Readable secretKey fees)
    (outcome : List (DecryptedFee W) × ExtTreeSet W.PublicKey) : decryptFees secretKey fees ≠ .ok outcome := by
  induction fees generalizing outcome with
  | nil => exact absurd (by simp [Readable]) unreadable
  | cons entry rest ih =>
    obtain ⟨elder, fee⟩ := entry
    rw [decryptFees]
    cases opened : fee.content.decryptAmount secretKey with
    | error panic => simp
    | ok first =>
      have later : ¬ Readable secretKey rest := by
        intro readable
        refine unreadable fun entry mem panic => ?_
        rcases List.mem_cons.mp mem with rfl | mem
        · simp [opened]
        · exact readable entry mem panic
      cases others : decryptFees secretKey rest with
      | error panic => simp
      | ok outcome => exact absurd others (ih later outcome)

namespace Selection

variable {before after : Selection W} {dbc : W.Dbc} {answer : W.FeeAnswer}
  {elderFees : ExtTreeMap (NodeId W.SocketAddr) (RequiredFee W.toDbcScheme)} {total feePerInput : Token}
  {amount : W.RevealedAmount} {earlier rest : List (W.Dbc × W.FeeAnswer)}

def Selects (before : Selection W) (dbc : W.Dbc) (answer : W.FeeAnswer) (after : Selection W) : Prop :=
  (before.turn dbc answer = .ok (.goOn after) ∨ before.turn dbc answer = .ok (.covered after)) ∧
    after.inputDbcsToSpend = before.inputDbcsToSpend ++ [dbc]

def GoesOn : Selection W → List (W.Dbc × W.FeeAnswer) → Selection W → Prop
  | self, [], current => self = current
  | self, (dbc, answer) :: rest, current =>
    ∃ next, self.turn dbc answer = .ok (.goOn next) ∧ next.GoesOn rest current

/-- `select_inputs` gets past some DBCs with these variables. -/
def Reached (rng : W.Rng) (recipients : List (Token × W.OwnerOnce))
    (earlier : List (W.Dbc × W.FeeAnswer)) (current : Selection W) : Prop :=
  ∃ total, Token.sum (recipients.map (·.1)) = some total ∧
    GoesOn ⟨[], .zero, total, recipients, total, ∅, rng⟩ earlier current

/-- `select_inputs` selects a DBC after others, and adds outputs for it. -/
def Selected (rng : W.Rng) (recipients : List (Token × W.OwnerOnce))
    (earlier : List (W.Dbc × W.FeeAnswer)) (dbc : W.Dbc) (answer : W.FeeAnswer)
    (payments : List (Token × W.OwnerOnce)) : Prop :=
  ∃ before after, Reached rng recipients earlier before ∧ before.Selects dbc answer after ∧
    after.recipients = before.recipients ++ payments

/-! ## Turns that select a DBC -/

/-- The fee part pays for an input when it passes the tests of the loop. -/
structure Passes (secretKey : W.SecretKey)
    (elderFees : ExtTreeMap (NodeId W.SocketAddr) (RequiredFee W.toDbcScheme)) (total : Token) : Prop where
  answered : supermajority W.elderCount ≤ elderFees.size
  readable : Readable secretKey elderFees.toList
  elders : supermajority W.elderCount ≤ W.elderCount
  fewUnopened : (unopenedKeys secretKey elderFees.toList).size ≤ W.elderCount - supermajority W.elderCount
  summed : Token.sum ((openedFees secretKey elderFees.toList).map (·.2)) = some total

theorem feePart_eq_paid (before : Selection W) (passes : Passes secretKey elderFees total) :
    before.feePart secretKey (.ok elderFees) = .ok (.paid total (before.pays secretKey elderFees)) := by
  simp only [feePart, decryptFees_readable passes.readable, passes.summed]
  rw [if_neg (Nat.not_lt.mpr passes.answered), if_neg (Nat.not_lt.mpr passes.elders),
    if_neg (Nat.not_lt.mpr passes.fewUnopened)]
  rfl

theorem passes_of_feePart (outcome : before.feePart secretKey (.ok elderFees) = .ok (.paid total after)) :
    Passes secretKey elderFees total := by
  by_cases readable : Readable secretKey elderFees.toList
  · simp only [feePart, decryptFees_readable readable] at outcome
    split_ifs at outcome with few short many
    · cases outcome
    · cases outcome
    · split at outcome
      · cases outcome
      · rename_i summed
        obtain ⟨rfl, -⟩ := FeeOutcome.paid.inj (Except.ok.inj outcome)
        exact ⟨Nat.not_lt.mp few, readable, Nat.not_lt.mp short, Nat.not_lt.mp many, summed⟩
  · cases opened : decryptFees secretKey elderFees.toList with
    | error panic =>
      simp only [feePart, opened] at outcome
      split_ifs at outcome
      cases outcome
    | ok fees => exact absurd opened (decryptFees_unreadable readable fees)

theorem pays_recipients (before : Selection W) (secretKey : W.SecretKey)
    (elderFees : ExtTreeMap (NodeId W.SocketAddr) (RequiredFee W.toDbcScheme)) :
    ∃ payments, (before.pays secretKey elderFees).recipients = before.recipients ++ payments ∧
      Pays (openedFees secretKey elderFees.toList) payments := by
  obtain ⟨payments, added, paid, -⟩ :=
    Payments.pay_run ⟨before.recipients, ∅, before.rng⟩ (openedFees secretKey elderFees.toList)
  exact ⟨payments, added, paid⟩

theorem spend_grows (turned : before.spend dbc feePerInput = .ok (.goOn after) ∨
      before.spend dbc feePerInput = .ok (.covered after)) :
    after.recipients = before.recipients ∧ before.inputDbcsToSpend <+: after.inputDbcsToSpend := by
  cases known : W.revealedAmountBearer dbc with
  | error error =>
    simp only [spend, known, Except.ok.injEq, Turn.goOn.injEq, reduceCtorEq, or_false] at turned
    rw [← turned]
    exact ⟨rfl, List.prefix_rfl⟩
  | ok amount =>
    obtain ⟨turn, spends, spent⟩ := before.spend_spent feePerInput known
    simp only [spends, Except.ok.injEq] at turned
    cases spent with
    | failed error => simp at turned
    | goOn =>
      simp only [Turn.goOn.injEq, reduceCtorEq, or_false] at turned
      rw [← turned]
      exact ⟨rfl, List.prefix_append ..⟩
    | covered =>
      simp only [Turn.covered.injEq, reduceCtorEq, false_or] at turned
      rw [← turned]
      exact ⟨rfl, List.prefix_append ..⟩

/-- A turn that selects a DBC has passed the tests, and adds outputs that pay the elders whose fees can
be decrypted. -/
theorem Selects.paid (selects : before.Selects dbc (.ok elderFees) after) (bearer : W.asRevealedInputBearer dbc = .ok (secretKey, amount)) :
    ∃ total payments, Passes secretKey elderFees total ∧
      after.recipients = before.recipients ++ payments ∧
      Pays (openedFees secretKey elderFees.toList) payments := by
  obtain ⟨turned, added⟩ := selects
  simp only [Selection.turn, bearer] at turned
  cases outcome : before.feePart secretKey (.ok elderFees) with
  | error panic => simp [outcome] at turned
  | ok outcomes =>
    cases outcomes with
    | skipped =>
      simp only [outcome, Except.ok.injEq, Turn.goOn.injEq, reduceCtorEq, or_false] at turned
      obtain rfl := turned
      simp at added
    | failed error => simp [outcome] at turned
    | paid total paid =>
      simp only [outcome] at turned
      have passes := passes_of_feePart outcome
      rw [feePart_eq_paid before passes] at outcome
      obtain ⟨-, rfl⟩ := FeeOutcome.paid.inj (Except.ok.inj outcome)
      obtain ⟨payments, listed, pays⟩ := before.pays_recipients secretKey elderFees
      exact ⟨total, payments, passes, (spend_grows turned).1.trans listed, pays⟩

theorem spend_first {error : TransfersError}
    (noInput : before.totalInputAmount = .zero) (noOutput : before.totalOutputAmount = .zero)
    (noChange : before.changeAmount = .zero) : before.spend dbc feePerInput ≠ .ok (.failed error) := by
  cases known : W.revealedAmountBearer dbc with
  | error => simp [spend, known]
  | ok amount =>
    simp only [spend, known, noInput, noOutput, noChange, Token.zero_checkedAdd]
    split
    · split <;> simp
    · split <;> simp

theorem selects_first (bearers : W.Bearers) (bearer : W.asRevealedInputBearer dbc = .ok (secretKey, amount)) (passes : Passes secretKey elderFees total) (rng : W.Rng) :
    ∃ after, Selects ⟨[], .zero, .zero, [], .zero, ∅, rng⟩ dbc (.ok elderFees) after := by
  obtain ⟨turn, spends, spent⟩ := spend_spent
    (pays ⟨[], .zero, .zero, [], .zero, ∅, rng⟩ secretKey elderFees) total (bearers bearer)
  have turned : Selection.turn ⟨[], .zero, .zero, [], .zero, ∅, rng⟩ dbc (.ok elderFees) = .ok turn := by
    simp only [Selection.turn, bearer, feePart_eq_paid _ passes, spends]
  cases spent with
  | failed error => exact absurd spends (spend_first rfl rfl rfl)
  | goOn => exact ⟨_, .inl turned, rfl⟩
  | covered => exact ⟨_, .inr turned, rfl⟩

/-! ## What a call returns -/

theorem loop_of_goesOn (goesOn : before.GoesOn earlier after) : before.loop (earlier ++ rest) = after.loop rest := by
  induction earlier generalizing before with
  | nil =>
    obtain rfl : before = after := goesOn
    rfl
  | cons entry earlier ih =>
    obtain ⟨next, turned, goesOn⟩ := goesOn
    rw [List.cons_append, loop, turned]
    exact ih goesOn

theorem turn_grows
    (turned : before.turn dbc answer = .ok (.goOn after) ∨ before.turn dbc answer = .ok (.covered after)) :
    before.inputDbcsToSpend <+: after.inputDbcsToSpend ∧ before.recipients <+: after.recipients := by
  cases bearer : W.asRevealedInputBearer dbc with
  | error error =>
    simp only [Selection.turn, bearer, Except.ok.injEq, Turn.goOn.injEq, reduceCtorEq, or_false] at turned
    rw [← turned]
    exact ⟨List.prefix_rfl, List.prefix_rfl⟩
  | ok revealed =>
    simp only [Selection.turn, bearer] at turned
    cases outcome : before.feePart revealed.1 answer with
    | error panic => simp [outcome] at turned
    | ok outcomes =>
      cases outcomes with
      | skipped =>
        simp only [outcome, Except.ok.injEq, Turn.goOn.injEq, reduceCtorEq, or_false] at turned
        rw [← turned]
        exact ⟨List.prefix_rfl, List.prefix_rfl⟩
      | failed error => simp [outcome] at turned
      | paid total paid =>
        simp only [outcome] at turned
        obtain ⟨fees⟩ := paid_of_feePart outcome
        obtain ⟨sameOutputs, moreInputs⟩ := spend_grows turned
        rw [sameOutputs]
        rw [fees.after_eq] at moreInputs ⊢
        exact ⟨moreInputs, List.prefix_append ..⟩

theorem loop_grows (outcome : before.loop rest = .ok (.ok after)) :
    before.inputDbcsToSpend <+: after.inputDbcsToSpend ∧ before.recipients <+: after.recipients := by
  induction rest generalizing before with
  | nil =>
    obtain rfl := Except.ok.inj (Except.ok.inj outcome)
    exact ⟨List.prefix_rfl, List.prefix_rfl⟩
  | cons next rest ih =>
    obtain ⟨dbc, answer⟩ := next
    rw [loop] at outcome
    cases turned : before.turn dbc answer with
    | error panic => simp [turned] at outcome
    | ok turn =>
      rw [turned] at outcome
      cases turn with
      | goOn next =>
        obtain ⟨inputs, outputs⟩ := turn_grows (.inl turned)
        obtain ⟨moreInputs, moreOutputs⟩ := ih outcome
        exact ⟨inputs.trans moreInputs, outputs.trans moreOutputs⟩
      | covered next =>
        obtain rfl := Except.ok.inj (Except.ok.inj outcome)
        exact turn_grows (.inr turned)
      | failed error => cases Except.ok.inj outcome

theorem Selected.returned {rng : W.Rng} {recipients payments : List (Token × W.OwnerOnce)}
    {later : List (W.Dbc × W.FeeAnswer)}
    (selected : Selected rng recipients earlier dbc answer payments) {result : ReissueInputs W}
    (outcome : selectInputs rng (earlier ++ (dbc, answer) :: later) recipients = .ok (.ok result)) :
    dbc ∈ result.1 ∧ payments ⊆ result.2.1 := by
  obtain ⟨before, after, ⟨total, summed, goesOn⟩, ⟨turned, added⟩, paid⟩ := selected
  simp only [selectInputs, summed, loop_of_goesOn goesOn] at outcome
  cases looped : before.loop ((dbc, answer) :: later) with
  | error panic => simp [looped] at outcome
  | ok final =>
    cases final with
    | error error => simp [looped] at outcome
    | ok final =>
      have grown : after.inputDbcsToSpend <+: final.inputDbcsToSpend ∧
          after.recipients <+: final.recipients := by
        rw [loop] at looped
        rcases turned with turned | turned
        · rw [turned] at looped
          exact loop_grows looped
        · rw [turned] at looped
          obtain rfl := Except.ok.inj (Except.ok.inj looped)
          exact ⟨List.prefix_rfl, List.prefix_rfl⟩
      simp only [looped] at outcome
      split at outcome
      · cases Except.ok.inj outcome
      · obtain rfl := Except.ok.inj (Except.ok.inj outcome)
        refine ⟨grown.1.subset ?_, fun output mem => grown.2.subset ?_⟩
        · rw [added]
          simp
        · rw [paid]
          exact List.mem_append_right _ mem

end Selection

/-! ## A quorum is paid -/

/-- The answers of a quorum can be decrypted, or the loop passes the DBC over: too many reward keys are on
answers that cannot be decrypted, or an amount cannot be read, or the fees are more than an amount can be. -/
def QuorumOpens (W : WalletScheme) (secretKey : W.SecretKey) (fees : ElderFees W) : Prop :=
  supermajority W.elderCount ≤ (openedFees secretKey fees).length ∨
    W.elderCount - supermajority W.elderCount < (unopenedKeys secretKey fees).size ∨
    ¬ Readable secretKey fees ∨
    Token.sum ((openedFees secretKey fees).map (·.2)) = none

abbrev sampleSevenWallet : WalletScheme := { sampleWallet with elderCount := 7 }

theorem sampleSevenWallet_bearers : sampleSevenWallet.Bearers := by
  rintro dbc secretKey amount ⟨⟩
  rfl

def sampleFiveFees (first second third fourth fifth : Nat) :
    ExtTreeMap (NodeId Nat) (RequiredFee sampleSevenWallet.toDbcScheme) :=
  let fee (key reward : Nat) : RequiredFee sampleSevenWallet.toDbcScheme :=
    ⟨⟨(key, [2, 0, 0, 0, 0, 0, 0, 0]), reward⟩, sampleSig reward 0⟩
  .ofList [(sampleNodeId [false, false, false] 1, fee first 1), (sampleNodeId [false, false, true] 2, fee second 2),
    (sampleNodeId [false, true] 3, fee third 3), (sampleNodeId [true, false] 4, fee fourth 4),
    (sampleNodeId [true, true] 5, fee fifth 5)]

/-- The inputs and the outputs of a call with a DBC of twenty nanos, for an answer to the query for its
fees. -/
def sampleSevenSelected (fees : ExtTreeMap (NodeId Nat) (RequiredFee sampleSevenWallet.toDbcScheme)) :
    Option (List (Nat × UInt64) × List (Token × Nat × Nat)) :=
  match selectInputs (W := sampleSevenWallet) (0 : Nat) [((4, 20), .ok fees)] [] with
  | .ok (.ok (inputs, outputs, _, _)) => some (inputs, outputs)
  | _ => none

end SafeNetwork
