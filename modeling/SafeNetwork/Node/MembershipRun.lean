import SafeNetwork.Node.SampleRounds

/-!
# Runs of a membership

What single calls on a membership do, and what holds after any sequence of them. The history is a
numbered log of decisions: a vote for the next generation may append to it, a vote for a past one
changes only its round. Members and archived names of a generation are those the decisions lead to.
-/

namespace SafeNetwork

open Std Consensus OrderedMap

namespace Membership

variable {N : NodeScheme} {C : MemberRounds N} {self : Membership C} {signedVote : C.SignedVote}
  {sapPrefix : Prefix}

/-! ## The log of decisions -/

def decisions (self : Membership C) : List (Decision N.sections) :=
  self.history.toList.map (·.2.1)

def membersAfter (bootstrapMembers : ExtTreeSet N.State) (log : List (Decision N.sections)) :
    N.Members :=
  log.foldl NodeScheme.applyDecision (NodeScheme.joinedMembers bootstrapMembers)

@[simp] theorem decisions_fromElders (config : C.Config) (bootstrapMembers : ExtTreeSet N.State) :
    (fromElders (C := C) config bootstrapMembers).decisions = [] := by
  simp [fromElders, decisions]

def archivedAfter (bootstrapMembers : ExtTreeSet N.State) (log : List (Decision N.sections)) :
    ExtTreeSet XorName :=
  log.foldl (fun archive decision => archiveStates archive decision.proposals.keys)
    (archiveStates ∅ bootstrapMembers.toList)

theorem archivedMembers_eq (self : Membership C) :
    self.archivedMembers = archivedAfter self.bootstrapMembers self.decisions := by
  rw [archivedMembers, archivedAfter, decisions, List.foldl_map]

theorem length_decisions (numbered : Numbered self.history self.gen) : self.decisions.length = self.gen := by
  have keys := congrArg List.length numbered.keys
  rw [← ExtTreeMap.map_fst_toList_eq_keys, List.length_map, List.length_range'] at keys
  rw [decisions, List.length_map, keys]

theorem membersUpTo_eq {entries : List (Nat × (Decision N.sections × C.Round))} {first gen : Nat}
    (numbers : entries.map Prod.fst = List.range' first entries.length) (members : N.Members)
    (reached : first ≤ gen) (inside : gen < first + entries.length) :
    membersUpTo gen members entries = .ok (((entries.map (·.2.1)).take (gen + 1 - first)).foldl
      NodeScheme.applyDecision members) := by
  induction entries generalizing first members with
  | nil =>
    rw [List.length_nil] at inside
    omega
  | cons entry rest ih =>
    obtain ⟨number, decision, round⟩ := entry
    simp only [List.map_cons, List.length_cons, List.range'_succ, List.cons.injEq] at numbers
    obtain ⟨rfl, numbers⟩ := numbers
    rw [List.length_cons] at inside
    rw [membersUpTo]
    obtain rfl | later := Nat.eq_or_lt_of_le reached
    · simp
    · have count : gen + 1 - number = gen + 1 - (number + 1) + 1 := by omega
      rw [if_neg later.ne, ih numbers _ later (by omega), count, List.map_cons, List.take_succ_cons,
        List.foldl_cons]

theorem membersUpTo_missing {entries : List (Nat × (Decision N.sections × C.Round))} {gen : Nat}
    (missing : gen ∉ entries.map Prod.fst) (members : N.Members) :
    membersUpTo gen members entries = .error (.invalidGeneration gen) := by
  induction entries generalizing members with
  | nil => rfl
  | cons entry rest ih =>
    obtain ⟨number, decision, round⟩ := entry
    simp only [List.map_cons, List.mem_cons, not_or] at missing
    rw [membersUpTo, if_neg (Ne.symm missing.1), ih missing.2]

theorem sectionMembers_eq (numbered : Numbered self.history self.gen) {gen : Nat} (reached : gen ≤ self.gen) :
    self.sectionMembers gen = .ok (membersAfter self.bootstrapMembers (self.decisions.take gen)) := by
  rw [sectionMembers]
  obtain rfl | positive := Nat.eq_zero_or_pos gen
  · rfl
  · have size : self.history.toList.length = self.gen := by
      rw [← length_decisions numbered, decisions, List.length_map]
    have numbers : self.history.toList.map Prod.fst =
        List.range' 1 self.history.toList.length := by
      rw [ExtTreeMap.map_fst_toList_eq_keys, numbered.keys, size]
    rw [if_neg positive.ne', membersUpTo_eq numbers _ positive (by omega), Nat.add_sub_cancel]
    rfl

theorem sectionMembers_missing (numbered : Numbered self.history self.gen) {gen : Nat}
    (ahead : self.gen < gen) : self.sectionMembers gen = .error (.invalidGeneration gen) := by
  rw [sectionMembers, if_neg (by omega), membersUpTo_missing]
  rw [ExtTreeMap.map_fst_toList_eq_keys, numbered.keys, List.mem_range'_1]
  omega

theorem consensusAtGen_ok (numbered : Numbered self.history self.gen) {gen : Nat} :
    (∃ round, self.consensusAtGen gen = .ok round) ↔ 1 ≤ gen ∧ gen ≤ self.gen + 1 := by
  rw [consensusAtGen]
  by_cases next : gen = self.gen + 1
  · simp only [next, if_true, Except.ok.injEq, exists_eq', true_iff]
    omega
  · have known : (∃ entry, self.history[gen]? = some entry) ↔ 1 ≤ gen ∧ gen ≤ self.gen := by
      rw [← numbered gen, ExtTreeMap.mem_iff_isSome_getElem?, Option.isSome_iff_exists]
    rw [if_neg next]
    cases found : self.history[gen]? with
    | none =>
      simp only [found, reduceCtorEq, exists_false, false_iff] at known ⊢
      omega
    | some entry =>
      simp only [found, Option.some.injEq, exists_eq', true_iff, Except.ok.injEq] at known ⊢
      omega

/-! ## Single calls -/

theorem validateAll_ok {members : N.Members} {archived : ExtTreeSet XorName} {proposals : List N.State} :
    validateAll (C := C) sapPrefix members archived proposals = .ok () ↔
      ∀ proposal ∈ proposals,
        NodeScheme.validateNodeState proposal sapPrefix members archived = .ok () := by
  induction proposals with
  | nil => simp [validateAll]
  | cons proposal rest ih =>
    rw [validateAll, List.forall_mem_cons]
    cases checked : NodeScheme.validateNodeState proposal sapPrefix members archived with
    | ok => simpa using ih
    | error => simp

/-- A vote whose proposals are valid: it is not outdated, it is signed by an elder, there is a round
for it, and each proposal is valid for the members before its generation and the archive there is. -/
theorem validateProposals_ok : self.validateProposals signedVote sapPrefix = .ok () ↔
      self.isOutdated signedVote = false ∧
        C.validateSignature (C.elders (C.config self.consensus)) signedVote = .ok () ∧
        (∃ round, self.consensusAtGen (C.gen signedVote) = .ok round) ∧
        ∃ members, self.sectionMembers (C.gen signedVote - 1) = .ok members ∧
          ∀ proposal ∈ C.proposals signedVote, NodeScheme.validateNodeState proposal sapPrefix
            members self.archivedMembers = .ok () := by
  rw [validateProposals]
  cases self.isOutdated signedVote with
  | true => simp
  | false =>
    cases C.validateSignature (C.elders (C.config self.consensus)) signedVote with
    | error => simp
    | ok =>
      cases self.consensusAtGen (C.gen signedVote) with
      | error => simp
      | ok =>
        cases self.sectionMembers (C.gen signedVote - 1) with
        | error => simp
        | ok members => simp [validateAll_ok]

/-- The answer of `Membership::handle_signed_vote` to what the round answers. -/
def answer (decision : Option (Decision N.sections)) :
    Except C.Error (VoteResponse C.SignedVote) →
      Result C (VoteResponse C.SignedVote × Option (Decision N.sections))
  | .ok voteResponse => .ok (voteResponse, decision)
  | .error error => .error (.consensus error)

inductive Handled (self : Membership C) (signedVote : C.SignedVote) (sapPrefix : Prefix) :
    Result C (VoteResponse C.SignedVote × Option (Decision N.sections)) × Membership C → Prop where
  | refused {error : MembershipError N.PublicKey C.Error}
    (invalid : self.validateProposals signedVote sapPrefix = .error error) :
    Handled self signedVote sapPrefix (.error error, self)
  | past {entry : Decision N.sections × C.Round} {round : C.Round}
    {result : Except C.Error (VoteResponse C.SignedVote)}
    (valid : self.validateProposals signedVote sapPrefix = .ok ())
    (past : C.gen signedVote ≠ self.gen + 1)
    (found : self.history[C.gen signedVote]? = some entry)
    (handled : C.handleSignedVote entry.2 signedVote = (result, round)) :
    Handled self signedVote sapPrefix (answer none result, { self with
      history := self.history.modify (C.gen signedVote) fun entry => (entry.1, round) })
  | pending {round : C.Round} {result : Except C.Error (VoteResponse C.SignedVote)}
    (valid : self.validateProposals signedVote sapPrefix = .ok ())
    (next : C.gen signedVote = self.gen + 1)
    (handled : C.handleSignedVote self.consensus signedVote = (result, round))
    (undecided : ∀ response, result = .ok response → C.decision round = none) :
    Handled self signedVote sapPrefix (answer none result, { self with consensus := round })
  | decided {round : C.Round} {voteResponse : VoteResponse C.SignedVote}
    {decision : Decision N.sections}
    (valid : self.validateProposals signedVote sapPrefix = .ok ())
    (next : C.gen signedVote = self.gen + 1)
    (handled : C.handleSignedVote self.consensus signedVote = (.ok voteResponse, round))
    (decides : C.decision round = some decision) :
    Handled self signedVote sapPrefix (.ok (voteResponse, some decision), { self with
      consensus := C.start (C.config round)
      history := self.history.insert (self.gen + 1) (decision, round)
      gen := self.gen + 1 })

theorem handled (self : Membership C) (signedVote : C.SignedVote) (sapPrefix : Prefix) :
    Handled self signedVote sapPrefix (self.handleSignedVote signedVote sapPrefix) := by
  rw [handleSignedVote]
  cases valid : self.validateProposals signedVote sapPrefix with
  | error error => exact .refused valid
  | ok =>
    obtain ⟨_, _, ⟨round, hasRound⟩, _⟩ := validateProposals_ok.mp valid
    simp only [hasRound]
    rw [consensusAtGen] at hasRound
    by_cases next : C.gen signedVote = self.gen + 1
    · rw [if_pos next] at hasRound
      obtain rfl := Except.ok.inj hasRound
      simp only [setConsensusAtGen, if_pos next]
      rcases step : C.handleSignedVote self.consensus signedVote with ⟨error | response, after⟩
      · exact .pending valid next step (by simp)
      · cases decides : C.decision after with
        | none =>
          simp only [decides]
          exact .pending valid next step fun _ _ => decides
        | some decision =>
          simp only [decides, next]
          exact .decided valid next step decides
    · rw [if_neg next] at hasRound
      cases found : self.history[C.gen signedVote]? with
      | none => simp [found] at hasRound
      | some entry =>
        simp only [found, Except.ok.injEq] at hasRound
        subst hasRound
        simp only [setConsensusAtGen, if_neg next]
        rcases step : C.handleSignedVote entry.2 signedVote with ⟨error | response, after⟩
        · exact .past valid next found step
        · cases decides : C.decision after with
          | none =>
            simp only [decides]
            exact .past valid next found step
          | some decision =>
            simp only [decides]
            exact .past valid next found step

theorem castVote_snd (self : Membership C) (signedVote : C.SignedVote) : (self.castVote signedVote).2 =
      { self with consensus := (C.castVote self.consensus signedVote).2 } := by
  rw [castVote]
  rcases C.castVote self.consensus signedVote with ⟨_ | _, round⟩ <;> rfl

/-- The vote that `Membership::propose` casts. -/
def proposedVote (self : Membership C) (nodeState : N.State) (sapPrefix : Prefix) :
    Option C.SignedVote :=
  match C.signProposal self.consensus (self.gen + 1) nodeState with
  | .error _ => none
  | .ok signedVote =>
    match self.validateProposals signedVote sapPrefix with
    | .error _ => none
    | .ok () => if C.faultless self.consensus signedVote then some signedVote else none

theorem proposedVote_eq_some {nodeState : N.State} {vote : C.SignedVote}
    (proposed : self.proposedVote nodeState sapPrefix = some vote) :
    C.gen vote = self.gen + 1 ∧ self.validateProposals vote sapPrefix = .ok () := by
  rw [proposedVote] at proposed
  cases signed : C.signProposal self.consensus (self.gen + 1) nodeState with
  | error error => simp [signed] at proposed
  | ok own =>
    cases valid : self.validateProposals own sapPrefix with
    | error error => simp [signed, valid] at proposed
    | ok =>
      simp only [signed, valid, Option.ite_none_right_eq_some, Option.some.injEq] at proposed
      obtain ⟨_, rfl⟩ := proposed
      exact ⟨C.gen_signProposal signed, valid⟩

theorem propose_snd (self : Membership C) (nodeState : N.State) (sapPrefix : Prefix) :
    (self.propose nodeState sapPrefix).2 =
      match self.proposedVote nodeState sapPrefix with
      | some vote => { self with consensus := (C.castVote self.consensus vote).2 }
      | none => self := by
  rw [propose, proposedVote]
  cases C.signProposal self.consensus (self.gen + 1) nodeState with
  | error error => rfl
  | ok vote =>
    dsimp only
    cases self.validateProposals vote sapPrefix with
    | error error => rfl
    | ok =>
      cases C.faultless self.consensus vote with
      | false => rfl
      | true => simp [castVote_snd]

/-! ## Calls -/

inductive Call (C : MemberRounds N) where
  | propose (nodeState : N.State) (sapPrefix : Prefix)
  | castVote (signedVote : C.SignedVote)
  | handleSignedVote (signedVote : C.SignedVote) (sapPrefix : Prefix)

def voteOf (self : Membership C) : Call C → Option C.SignedVote
  | .propose nodeState sapPrefix => self.proposedVote nodeState sapPrefix
  | .castVote signedVote => some signedVote
  | .handleSignedVote signedVote sapPrefix =>
    match self.validateProposals signedVote sapPrefix with
    | .ok () => if C.gen signedVote = self.gen + 1 then some signedVote else none
    | .error _ => none

/-- A membership with a record of what it was given and has emitted. -/
structure Recorded (C : MemberRounds N) where
  membership : Membership C
  given : List C.SignedVote
  /-- The decisions that `Membership::handle_signed_vote` returned, in order. -/
  emitted : List (Decision N.sections)

namespace Recorded

def start (config : C.Config) (bootstrapMembers : ExtTreeSet N.State) : Recorded C :=
  ⟨fromElders config bootstrapMembers, [], []⟩

def givenWith (before : Recorded C) (request : Call C) : List C.SignedVote :=
  (before.membership.voteOf request).toList ++ before.given

def call (before : Recorded C) (request : Call C) : Recorded C :=
  match request with
  | .propose nodeState sapPrefix =>
    { before with
      membership := (before.membership.propose nodeState sapPrefix).2
      given := before.givenWith request }
  | .castVote signedVote =>
    { before with
      membership := (before.membership.castVote signedVote).2
      given := before.givenWith request }
  | .handleSignedVote signedVote sapPrefix =>
    match before.membership.handleSignedVote signedVote sapPrefix with
    | (.ok (_, some decision), membership) => ⟨membership, [], before.emitted ++ [decision]⟩
    | (_, membership) => { before with membership, given := before.givenWith request }

end Recorded

/-- How a call gives a vote to the round in progress. -/
inductive Gives (self : Membership C) : Call C → C.SignedVote → C.Round → Prop where
  | propose {nodeState : N.State} {sapPrefix : Prefix} {vote : C.SignedVote}
    (proposed : self.proposedVote nodeState sapPrefix = some vote) :
    Gives self (.propose nodeState sapPrefix) vote (C.castVote self.consensus vote).2
  | castVote (vote : C.SignedVote) :
    Gives self (.castVote vote) vote (C.castVote self.consensus vote).2
  | handle {vote : C.SignedVote} {sapPrefix : Prefix} (next : C.gen vote = self.gen + 1)
    (valid : self.validateProposals vote sapPrefix = .ok ()) :
    Gives self (.handleSignedVote vote sapPrefix) vote (C.handleSignedVote self.consensus vote).2

theorem Gives.voteOf_eq {request : Call C} {vote : C.SignedVote} {round : C.Round}
    (gives : self.Gives request vote round) : self.voteOf request = some vote := by
  cases gives with
  | propose proposed => exact proposed
  | castVote => rfl
  | handle next valid => simp only [voteOf, valid, if_pos next]

inductive Called (before : Recorded C) (request : Call C) : Recorded C → Prop where
  | unchanged : Called before request before
  | past {vote : C.SignedVote} {sapPrefix : Prefix} {entry : Decision N.sections × C.Round}
    (handles : request = .handleSignedVote vote sapPrefix)
    (valid : before.membership.validateProposals vote sapPrefix = .ok ())
    (past : C.gen vote ≠ before.membership.gen + 1)
    (found : before.membership.history[C.gen vote]? = some entry) : Called before request
    { before with membership := { before.membership with
      history := before.membership.history.modify (C.gen vote) fun old =>
        (old.1, (C.handleSignedVote entry.2 vote).2) } }
  | pending {vote : C.SignedVote} {round : C.Round}
    (gives : before.membership.Gives request vote round) : Called before request
    { before with
      membership := { before.membership with consensus := round }, given := vote :: before.given }
  /-- The round in progress takes a vote and ends with a decision, which is emitted. -/
  | decided {vote : C.SignedVote} {round : C.Round} {decision : Decision N.sections}
    (gives : before.membership.Gives request vote round)
    (decides : C.decision round = some decision) : Called before request
    ⟨{ before.membership with
      consensus := C.start (C.config round)
      history := before.membership.history.insert (before.membership.gen + 1) (decision, round)
      gen := before.membership.gen + 1 }, [], before.emitted ++ [decision]⟩

theorem called (before : Recorded C) (request : Call C) : Called before request (before.call request) := by
  cases request with
  | propose nodeState sapPrefix =>
    rw [Recorded.call, Recorded.givenWith, voteOf, propose_snd]
    cases proposed : before.membership.proposedVote nodeState sapPrefix with
    | none => exact .unchanged
    | some vote => exact .pending (.propose proposed)
  | castVote vote =>
    rw [Recorded.call, castVote_snd]
    exact .pending (.castVote vote)
  | handleSignedVote vote sapPrefix =>
    rw [Recorded.call, Recorded.givenWith, voteOf]
    have outcome := before.membership.handled vote sapPrefix
    generalize before.membership.handleSignedVote vote sapPrefix = after at outcome
    cases outcome with
    | refused invalid =>
      simp only [invalid]
      exact .unchanged
    | @past entry round result valid past found handled =>
      have outcome : Called before _ _ := .past rfl valid past found
      rw [handled] at outcome
      cases result <;>
        simpa only [answer, valid, if_neg past, Option.toList_none, List.nil_append] using outcome
    | @pending round result valid next handled undecided =>
      have outcome := Called.pending (Gives.handle next valid)
      rw [handled] at outcome
      cases result <;>
        simpa only [answer, valid, if_pos next, Option.toList_some, List.singleton_append] using outcome
    | @decided round response decision valid next handled decides =>
      have gives := Gives.handle next valid
      rw [handled] at gives
      exact .decided gives decides

/-! ## Generations -/

/-- The history counts the generations, and what was emitted is what it holds. -/
structure Counted (after : Recorded C) : Prop where
  /-- The keys of the history are `1, …, gen`. -/
  numbered : Numbered after.membership.history after.membership.gen
  emitted : after.emitted = after.membership.decisions

theorem decisions_modify (history : ExtTreeMap Nat (Decision N.sections × C.Round)) (gen : Nat) (round : C.Round) :
    (history.modify gen fun entry => (entry.1, round)).toList.map (·.2.1) = history.toList.map (·.2.1) := by
  rw [toList_modify, List.map_map]
  refine List.map_congr_left fun entry _ => ?_
  dsimp only [Function.comp_apply]
  split <;> rfl

theorem decisions_insert (numbered : Numbered self.history self.gen) (entry : Decision N.sections × C.Round) :
    (self.history.insert (self.gen + 1) entry).toList.map (·.2.1) = self.decisions ++ [entry.1] := by
  rw [numbered.toList_insert, List.map_append]
  rfl

theorem Counted.start (config : C.Config) (bootstrapMembers : ExtTreeSet N.State) :
    Counted (Recorded.start (C := C) config bootstrapMembers) :=
  ⟨Numbered.empty, (decisions_fromElders config bootstrapMembers).symm⟩

theorem Counted.call {before : Recorded C} (counted : Counted before) (request : Call C) :
    Counted (before.call request) ∧
      (before.call request).membership.gen ≤ before.membership.gen + 1 := by
  have outcome := called before request
  generalize before.call request = after at outcome
  cases outcome with
  | unchanged => exact ⟨counted, Nat.le_succ _⟩
  | past handles valid past found =>
    refine ⟨⟨?_, ?_⟩, Nat.le_succ _⟩
    · intro number
      rw [ExtTreeMap.mem_modify]
      exact counted.numbered number
    · rw [decisions, decisions_modify]
      exact counted.emitted
  | pending reaches => exact ⟨⟨counted.numbered, counted.emitted⟩, Nat.le_succ _⟩
  | decided reaches decides =>
    refine ⟨⟨counted.numbered.insert _, ?_⟩, Nat.le_refl _⟩
    rw [decisions, decisions_insert counted.numbered, counted.emitted]

theorem Counted.run {before : Recorded C} (counted : Counted before) (calls : List (Call C)) :
    Counted (Runs.run Recorded.call before calls) ∧
      (Runs.run Recorded.call before calls).membership.gen ≤ before.membership.gen + calls.length := by
  induction calls generalizing before with
  | nil => exact ⟨counted, Nat.le_refl _⟩
  | cons request rest ih =>
    obtain ⟨kept, next⟩ := counted.call request
    obtain ⟨all, bound⟩ := ih kept
    refine ⟨all, bound.trans ?_⟩
    rw [List.length_cons]
    omega

/-- For any calls on a new membership: the history has exactly the generations up to the current one,
these are the generations with members, each decision was emitted once and in order, no vote for
generation zero reaches the subtraction in `validate_proposals`, and there are no more generations
than calls, so that the next one fits a `u64` unless there were almost `2 ^ 64` calls. -/
theorem generations_counted (config : C.Config) (bootstrapMembers : ExtTreeSet N.State) (calls : List (Call C)) :
    let after := Runs.run Recorded.call (Recorded.start config bootstrapMembers) calls
    after.membership.history.keys = List.range' 1 after.membership.gen ∧
      (∀ gen, (∃ members, after.membership.sectionMembers gen = .ok members) ↔
        gen ≤ after.membership.gen) ∧
      after.emitted = after.membership.history.toList.map (·.2.1) ∧
      (∀ vote round, after.membership.consensusAtGen (C.gen vote) = .ok round → 1 ≤ C.gen vote) ∧
      (calls.length < 2 ^ 64 - 1 → after.membership.gen + 1 < 2 ^ 64) := by
  intro after
  obtain ⟨counted, bound⟩ := (Counted.start config bootstrapMembers).run calls
  refine ⟨counted.numbered.keys, ?_, counted.emitted, ?_, ?_⟩
  · intro gen
    constructor
    · rintro ⟨members, found⟩
      by_contra ahead
      rw [sectionMembers_missing counted.numbered (Nat.lt_of_not_le ahead)] at found
      cases found
    · intro reached
      exact ⟨_, sectionMembers_eq counted.numbered reached⟩
  · intro vote round found
    exact ((consensusAtGen_ok counted.numbered).mp ⟨round, found⟩).1
  · intro few
    have start : (Recorded.start (C := C) config bootstrapMembers).membership.gen = 0 := rfl
    rw [start, Nat.zero_add] at bound
    have fits : after.membership.gen ≤ calls.length := bound
    omega

/-! ## Running out of generations -/

def sampleRelocation (gen : Nat) : sampleNodes.State := ⟨sampleNodeId [] 0, .relocated gen, none⟩

def sampleRelocations (count : Nat) : List (Call sampleRounds) :=
  (List.range count).map fun index =>
    .handleSignedVote ⟨0, index + 1, [sampleRelocation (index + 1)]⟩ default

theorem validate_sampleRelocation (gen : Nat) (members : sampleNodes.Members) (archived : ExtTreeSet XorName) :
    NodeScheme.validateNodeState (N := sampleNodeScheme) (sampleRelocation gen) default members
      archived = .ok () := rfl

/-- The membership of one elder after so many relocations. -/
structure Relocated (after : Recorded sampleRounds) (count : Nat) : Prop where
  counted : Counted after
  gen : after.membership.gen = count
  consensus : after.membership.consensus = ⟨0, none⟩
  last : ∀ entry, after.membership.history[count]? = some entry →
    entry.1 = sampleDecision 0 count [sampleRelocation count]

theorem Relocated.next {before : Recorded sampleRounds} {count : Nat} (relocated : Relocated before count) :
    Relocated (before.call (.handleSignedVote ⟨0, count + 1, [sampleRelocation (count + 1)]⟩
      default)) (count + 1) := by
  obtain ⟨counted, gen, consensus, last⟩ := relocated
  have fresh : before.membership.isOutdated (⟨0, count + 1, [sampleRelocation (count + 1)]⟩ :
      sampleRounds.SignedVote) = false := by
    rw [isOutdated]
    cases found : before.membership.history[count]? with
    | none => simp [found]
    | some entry =>
      have other : entry.1.proposals.contains (sampleRelocation (count + 1)) = false := by
        rw [← Bool.not_eq_true, ExtTreeMap.contains_iff_mem, last entry found, mem_sampleDecision]
        simp [sampleRelocation]
      simp [found, other]
  have round : before.membership.consensusAtGen (count + 1) = .ok ⟨0, none⟩ := by
    rw [consensusAtGen, gen, if_pos rfl, consensus]
  have valid : before.membership.validateProposals (⟨0, count + 1, [sampleRelocation (count + 1)]⟩ :
      sampleRounds.SignedVote) default = .ok () := by
    refine validateProposals_ok.mpr ⟨fresh, ?_, ⟨_, round⟩, _,
      sectionMembers_eq counted.numbered (Nat.le_of_eq gen.symm), ?_⟩
    · simp [consensus]
    · simp [validate_sampleRelocation]
  have step : before.call (.handleSignedVote ⟨0, count + 1, [sampleRelocation (count + 1)]⟩ default) =
      ⟨⟨⟨0, none⟩, before.membership.bootstrapMembers, count + 1,
          before.membership.history.insert (count + 1)
            (sampleDecision 0 (count + 1) [sampleRelocation (count + 1)],
              ⟨0, some (⟨0, count + 1, [sampleRelocation (count + 1)]⟩,
                sampleDecision 0 (count + 1) [sampleRelocation (count + 1)])⟩)⟩,
        [], before.emitted ++ [sampleDecision 0 (count + 1) [sampleRelocation (count + 1)]]⟩ := by
    simp [Recorded.call, handleSignedVote, valid, round, gen, SoloRound.give]
  refine ⟨(counted.call _).1, ?_, ?_, ?_⟩
  · rw [step]
  · rw [step]
  · intro entry found
    rw [step, ExtTreeMap.getElem?_insert_self] at found
    obtain rfl := Option.some.inj found
    rfl

theorem relocated_sampleRelocations (count : Nat) :
    Relocated (Runs.run Recorded.call (Recorded.start (0 : Nat) ∅) (sampleRelocations count)) count := by
  induction count with
  | zero =>
    exact ⟨Counted.start _ _, rfl, rfl, by simp [sampleRelocations, Recorded.start, fromElders]⟩
  | succ count ih =>
    rw [sampleRelocations, List.range_succ, List.map_append, Runs.run_append]
    exact ih.next

/-- The elder of a section of one that has decided as often as a `u64` counts cannot compute the next
generation. -/
theorem generations_run_out : (Runs.run Recorded.call (Recorded.start (0 : Nat) ∅)
      (sampleRelocations (2 ^ 64 - 1))).membership.gen + 1 = 2 ^ 64 := by
  rw [(relocated_sampleRelocations (2 ^ 64 - 1)).gen]
  norm_num

end Membership

end SafeNetwork
