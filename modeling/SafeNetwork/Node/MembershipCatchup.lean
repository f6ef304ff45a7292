import SafeNetwork.Node.MembershipLog

/-!
# Catching up on memberships

`messaging/membership.rs`: an elder that lags behind asks another for the votes from a generation on
and handles them in order. The answer has one super-majority vote for each generation decided, then the
votes in progress. The batch is dropped from the first vote that fails.

A vote for a generation that the elder already has is checked again, against the members before that
generation but against all names archived since. So a batch that repeats the join of a node which has
left by now fails before it brings anything new.
-/

namespace SafeNetwork

open Std Consensus OrderedMap

namespace Membership

variable {N : NodeScheme} {C : MemberRounds N} {self : Membership C} {sapPrefix : Prefix}
  {bootstrapMembers : ExtTreeSet N.State} {config : C.Config} {vote : C.SignedVote} {votes : List C.SignedVote}
  {after : Membership C}

/-! ## Handling a batch -/

/-- The commands that membership votes lead to. -/
inductive VoteCmd (C : MemberRounds N) where
  /-- Send `MembershipAE` with our generation to the sender of the votes. -/
  | sendMembershipAe (gen : Nat)
  | handleMembershipDecision (decision : Decision N.sections)
  /-- Send `MembershipVotes` of one vote to the elders. -/
  | sendToElders (vote : C.SignedVote)

def broadcastOf : VoteResponse C.SignedVote → List (VoteCmd C)
  | .broadcast responseVote => [.sendToElders responseVote]
  | .waitingForMoreVotes => []

/-- `MyNode::handle_membership_votes` — the commands, and the membership instance after the votes.
Without an instance every vote is dropped. -/
def handleMembershipVotes (sapPrefix : Prefix) :
    Option (Membership C) → List C.SignedVote → List (VoteCmd C) × Option (Membership C)
  | membership, [] => ([], membership)
  | none, _ :: signedVotes => handleMembershipVotes sapPrefix none signedVotes
  | some membership, signedVote :: signedVotes =>
    match membership.handleSignedVote signedVote sapPrefix with
    | (.ok (voteResponse, decision), membership) =>
      let (cmds, after) := handleMembershipVotes sapPrefix (some membership) signedVotes
      (decision.toList.map .handleMembershipDecision ++ broadcastOf voteResponse ++ cmds, after)
    -- We are behind the voter: ask it, and do not look at the other votes.
    | (.error .requestAntiEntropy, membership) =>
      ([.sendMembershipAe membership.gen], some membership)
    -- Drop this and all votes in this batch thereafter.
    | (.error _, membership) => ([], some membership)

/-- `MyNode::handle_membership_anti_entropy_request` — the votes sent back. -/
def handleMembershipAntiEntropyRequest (membership : Option (Membership C)) (gen : Nat) :
    Option (List C.SignedVote) :=
  match membership with
  | some membership => (membership.antiEntropy gen).toOption
  | none => none

theorem handleMembershipVotes_error {error : MembershipError N.PublicKey C.Error} (failed : self.handleSignedVote vote sapPrefix = (.error error, after)) :
    (handleMembershipVotes sapPrefix (some self) (vote :: votes)).2 = some after := by
  rw [handleMembershipVotes, failed]
  cases error <;> rfl

theorem handleMembershipVotes_ok {answer : VoteResponse C.SignedVote × Option (Decision N.sections)} (taken : self.handleSignedVote vote sapPrefix = (.ok answer, after)) :
    (handleMembershipVotes sapPrefix (some self) (vote :: votes)).2 =
      (handleMembershipVotes sapPrefix (some after) votes).2 := by
  rw [handleMembershipVotes, taken]

/-! ## Past rounds -/

def Kept (config : C.Config) (allowed : Prefix → Prop) (bootstrapMembers : ExtTreeSet N.State)
    (self : Membership C) : Prop :=
  ∀ number entry, self.history[number]? = some entry → ∃ votes, Given C config votes entry.2 ∧
    (∀ vote ∈ votes, ValidAfter C (C.elders config) allowed bootstrapMembers
      (self.decisions.take (number - 1)) vote) ∧ C.decision entry.2 = some entry.1

variable {before : Recorded C} {allowed : Prefix → Prop}

theorem Kept.call (keepsDecision : KeepsDecision C) (sound : Sound config allowed bootstrapMembers before)
    (kept : Kept config allowed bootstrapMembers before.membership) {request : Call C}
    (checked : request.Checked allowed) : Kept config allowed bootstrapMembers (before.call request).membership := by
  have numbered := sound.counted.numbered
  have outcome := called before request
  generalize before.call request = after at outcome
  cases outcome with
  | unchanged => exact kept
  | @past vote sapPrefix entry handles valid past found =>
    intro number other present
    rw [decisions, decisions_modify]
    rw [ExtTreeMap.getElem?_modify] at present
    split at present
    · rename_i same
      obtain rfl := Std.compare_eq_iff_eq.mp same
      rw [found] at present
      obtain rfl := Option.some.inj present
      obtain ⟨votes, given, voted, decides⟩ := kept _ entry found
      subst handles
      have last := ValidAfter.of_validateProposals numbered checked valid
      rw [sound.config_eq, sound.bootstrap] at last
      exact ⟨vote :: votes, given.handle vote, List.forall_mem_cons.mpr ⟨last, voted⟩,
        keepsDecision _ _ _ decides⟩
    · exact kept number other present
  | pending gives => exact kept
  | @decided vote round decision gives decides =>
    intro number other present
    rw [decisions, decisions_insert numbered]
    rw [ExtTreeMap.getElem?_insert] at present
    have size := length_decisions numbered
    split at present
    · rename_i same
      obtain rfl := Std.compare_eq_iff_eq.mp same
      obtain rfl := Option.some.inj present
      have last := gives.valid checked numbered
      rw [sound.config_eq, sound.bootstrap] at last
      rw [Nat.add_sub_cancel, ← size, List.take_left']
      · exact ⟨_, gives.given sound.given, List.forall_mem_cons.mpr ⟨last, sound.votes⟩, decides⟩
      · rfl
    · have inside := (numbered number).mp (by
        rw [ExtTreeMap.mem_iff_isSome_getElem?, present]
        rfl)
      rw [List.take_append_of_le_length (by omega)]
      exact kept number other present

theorem Kept.run (keepsDecision : KeepsDecision C) (config : C.Config) (allowed : Prefix → Prop)
    (bootstrapMembers : ExtTreeSet N.State) {calls : List (Call C)}
    (checked : ∀ request ∈ calls, request.Checked allowed) : Kept config allowed bootstrapMembers
      (Runs.run Recorded.call (Recorded.start config bootstrapMembers) calls).membership := by
  refine (Runs.run_induction (motive := fun after : Recorded C =>
    Sound config allowed bootstrapMembers after ∧
      Kept config allowed bootstrapMembers after.membership)
    ⟨Sound.start config allowed bootstrapMembers, ?_⟩ fun _ both request listed =>
      ⟨both.1.call (checked request listed),
        both.2.call keepsDecision both.1 (checked request listed)⟩).2
  intro number entry found
  simp [Recorded.start, fromElders] at found

/-! ## Catchup votes -/

/-- A super-majority vote for a decision, built from votes valid after the decisions before it. -/
def Proves (C : MemberRounds N) (elders : C.Elders) (sapPrefix : Prefix)
    (bootstrapMembers : ExtTreeSet N.State) (log : List (Decision N.sections)) (number : Nat)
    (decision : Decision N.sections) (vote : C.SignedVote) : Prop :=
  1 ≤ number ∧ log[number - 1]? = some decision ∧
    ∃ votes, (∀ other ∈ votes, ValidAfter C elders (· = sapPrefix) bootstrapMembers
      (log.take (number - 1)) other) ∧ Convinces C elders number votes decision vote

theorem Proves.validAfter {elders : C.Elders} {log : List (Decision N.sections)} {number : Nat}
    {decision : Decision N.sections} (proves : Proves C elders sapPrefix bootstrapMembers log number decision vote) :
    ValidAfter C elders (· = sapPrefix) bootstrapMembers (log.take (number - 1)) vote := by
  obtain ⟨positive, found, votes, valid, convinces⟩ := proves
  have inside : number - 1 < log.length := (List.getElem?_eq_some_iff.mp found).1
  refine ⟨?_, convinces.signed, ?_, ?_⟩
  · rw [convinces.gen_eq, List.length_take_of_le inside.le]
    omega
  · intro last isLast
    obtain ⟨other, known, contained⟩ := convinces.contains
    obtain ⟨proposal, proposed, new⟩ := (valid other known).fresh last isLast
    exact ⟨proposal, contained proposal proposed, new⟩
  · intro proposal proposed
    obtain ⟨other, known, among⟩ := convinces.proposed proposal proposed
    exact (valid other known).proposals proposal among

theorem catchupVotes_eq {proves : Nat × (Decision N.sections × C.Round) → C.SignedVote → Prop}
    {entries : List (Nat × (Decision N.sections × C.Round))} (fromGen : Nat) (built : ∀ entry ∈ entries, ∃ vote,
      C.buildSuperMajorityVote entry.2.2 entry.1 = .ok vote ∧ proves entry vote) :
    ∃ votes, catchupVotes fromGen entries = .ok votes ∧
      List.Forall₂ proves (entries.filter (fromGen ≤ ·.1)) votes := by
  induction entries with
  | nil => exact ⟨[], rfl, .nil⟩
  | cons entry rest ih =>
    obtain ⟨⟨vote, builds, proved⟩, later⟩ := List.forall_mem_cons.mp built
    obtain ⟨votes, caught, all⟩ := ih later
    obtain ⟨number, decision, round⟩ := entry
    rw [catchupVotes]
    by_cases asked : fromGen ≤ number
    · refine ⟨vote :: votes, ?_, ?_⟩
      · simp only [if_pos asked, builds, caught]
        rfl
      · simpa [asked] using ⟨proved, all⟩
    · refine ⟨votes, ?_, ?_⟩
      · rw [if_neg asked, caught]
      · simpa [asked] using all

theorem catchupVotes_proofs (buildsSuperMajority : BuildsSuperMajority C)
    (sound : Sound config (· = sapPrefix) bootstrapMembers before)
    (kept : Kept config (· = sapPrefix) bootstrapMembers before.membership) (fromGen : Nat) :
    ∃ votes, catchupVotes fromGen before.membership.history.toList = .ok votes ∧
      List.Forall₂ (fun entry vote => Proves C (C.elders config) sapPrefix bootstrapMembers
          before.membership.decisions entry.1 entry.2.1 vote)
        (before.membership.history.toList.filter (fromGen ≤ ·.1)) votes := by
  have numbered := sound.counted.numbered
  have built : ∀ entry ∈ before.membership.history.toList, ∃ vote,
      C.buildSuperMajorityVote entry.2.2 entry.1 = .ok vote ∧ Proves C (C.elders config) sapPrefix
        bootstrapMembers before.membership.decisions entry.1 entry.2.1 vote := by
    rintro ⟨number, entry⟩ listed
    have found := ExtTreeMap.mem_toList_iff_getElem?_eq_some.mp listed
    obtain ⟨positive, reached⟩ := (numbered number).mp (by
      rw [ExtTreeMap.mem_iff_isSome_getElem?, found]
      rfl)
    obtain ⟨votes, given, valid, decides⟩ := kept number entry found
    have place : before.membership.decisions[number - 1]? = some entry.1 := by
      rw [getElem?_decisions numbered, Nat.sub_add_cancel positive, found]
      rfl
    have length := List.length_take_of_le (List.getElem?_eq_some_iff.mp place).1.le
    have gens : ∀ vote ∈ votes, C.gen vote = number := by
      intro vote known
      rw [(valid vote known).next, length, Nat.sub_add_cancel positive]
    obtain ⟨vote, builds, convinces⟩ :=
      buildsSuperMajority config votes entry.2 entry.1 number given gens decides
    exact ⟨vote, builds, positive, place, votes, valid, convinces⟩
  exact catchupVotes_eq fromGen built

/-! ## One catchup vote -/

theorem membership_call (before : Recorded C) (vote : C.SignedVote) (sapPrefix : Prefix) :
    (before.call (.handleSignedVote vote sapPrefix)).membership =
      (before.membership.handleSignedVote vote sapPrefix).2 := by
  rw [Recorded.call]
  split
  · rename_i handled
    rw [handled]
  · rename_i handled
    rw [handled]

theorem decisions_call (counted : Counted before) (request : Call C) :
    before.membership.decisions <+: (before.call request).membership.decisions := by
  have outcome := called before request
  generalize before.call request = after at outcome
  cases outcome with
  | unchanged => exact List.prefix_refl _
  | past handles valid past found =>
    rw [decisions, decisions, decisions_modify]
  | pending gives => exact List.prefix_refl _
  | decided gives decides =>
    rw [decisions, decisions, decisions_insert counted.numbered]
    exact List.prefix_append _ _

theorem decisions_run (counted : Counted before) (calls : List (Call C)) :
    before.membership.decisions <+: (Runs.run Recorded.call before calls).membership.decisions :=
  (Runs.run_induction (motive := fun after : Recorded C => Counted after ∧
      before.membership.decisions <+: after.membership.decisions)
    ⟨counted, List.prefix_refl _⟩ fun _ both request _ =>
      ⟨(both.1.call request).1, both.2.trans (decisions_call both.1 request)⟩).2

section

variable {elders : C.Elders} {log : List (Decision N.sections)} {number : Nat}
  {decision : Decision N.sections} {vote : C.SignedVote}

def Rejoinless (self : Membership C) (vote : C.SignedVote) : Prop :=
  ∀ proposal ∈ C.proposals vote, proposal.state = .joined → proposal.name ∉ self.archivedMembers

section

variable (proves : Proves C elders sapPrefix bootstrapMembers log number decision vote)
  (sound : Sound config (· = sapPrefix) bootstrapMembers before)
include proves sound

/-- A proof of a decision that the membership has, or of the next, is valid unless it lets an archived
node join. -/
theorem Proves.validateProposals_iff (group : C.elders config = elders)
    (follows : before.membership.decisions <+: log) (reached : number ≤ before.membership.gen + 1) :
    before.membership.validateProposals vote sapPrefix = .ok () ↔
      before.membership.Rejoinless vote := by
  have numbered := sound.counted.numbered
  have gen := proves.2.2.choose_spec.2.gen_eq
  have same : before.membership.decisions.take (number - 1) = log.take (number - 1) := by
    have size := length_decisions numbered
    obtain ⟨rest, rfl⟩ := follows
    rw [List.take_append_of_le_length (by omega)]
  have valid := proves.validAfter
  rw [← same, ← group, ← sound.bootstrap, ← gen] at valid
  refine ValidAfter.validateProposals_iff numbered (by omega) ?_
  rw [sound.config_eq]
  exact valid

theorem Proves.handle_past
    (kept : Kept config (· = sapPrefix) bootstrapMembers before.membership)
    (group : C.elders config = elders) (follows : before.membership.decisions <+: log)
    (past : number ≤ before.membership.gen) (rejoinless : before.membership.Rejoinless vote) :
    ∃ answer, before.membership.handleSignedVote vote sapPrefix =
        (.ok answer, (before.call (.handleSignedVote vote sapPrefix)).membership) ∧
      (before.call (.handleSignedVote vote sapPrefix)).membership.decisions = before.membership.decisions ∧
      (before.call (.handleSignedVote vote sapPrefix)).membership.consensus = before.membership.consensus := by
  have numbered := sound.counted.numbered
  have valid := (proves.validateProposals_iff sound group follows (by omega)).mpr rejoinless
  obtain ⟨positive, place, votes, _, convinces⟩ := proves
  rw [membership_call]
  have outcome := before.membership.handled vote sapPrefix
  generalize before.membership.handleSignedVote vote sapPrefix = result at outcome
  have gen := convinces.gen_eq
  cases outcome with
  | refused invalid =>
    rw [valid] at invalid
    cases invalid
  | @past entry round result _ _ found handled =>
    rw [gen] at found
    obtain ⟨given, isGiven, voted, decides⟩ := kept number entry found
    have held : before.membership.decisions[number - 1]? = some entry.1 := by
      rw [getElem?_decisions numbered, Nat.sub_add_cancel positive, found]
      rfl
    have inside := (List.getElem?_eq_some_iff.mp held).1
    have agrees : entry.1 = decision := by
      obtain ⟨rest, rfl⟩ := follows
      rw [List.getElem?_append_left inside, held] at place
      exact Option.some.inj place
    obtain ⟨⟨response, ok⟩, _⟩ := convinces.decides config given entry.2 group isGiven
      (fun other known => by
        rw [(voted other known).next, List.length_take_of_le inside.le,
          Nat.sub_add_cancel positive])
      (fun earlier is => by
        rw [decides] at is
        rw [← Option.some.inj is, agrees])
    rw [handled] at ok
    obtain rfl : result = .ok response := ok
    refine ⟨_, rfl, ?_, rfl⟩
    rw [decisions, decisions_modify, decisions]
  | pending _ next => omega
  | decided _ next => omega

end

def Agreeing (self : Membership C) (log : List (Decision N.sections)) : Prop :=
  ∀ decision other, C.decision self.consensus = some decision → log[self.gen]? = some other →
    decision = other

theorem Proves.handle_next (proves : Proves C elders sapPrefix bootstrapMembers log number decision vote)
    (sound : Sound config (· = sapPrefix) bootstrapMembers before)
    (group : C.elders config = elders) (follows : before.membership.decisions <+: log)
    (agreeing : before.membership.Agreeing log) (next : number = before.membership.gen + 1) :
    ∃ answer, before.membership.handleSignedVote vote sapPrefix =
        (.ok answer, (before.call (.handleSignedVote vote sapPrefix)).membership) ∧
      (before.call (.handleSignedVote vote sapPrefix)).membership.decisions =
        before.membership.decisions ++ [decision] ∧
      C.decision (before.call (.handleSignedVote vote sapPrefix)).membership.consensus = none := by
  have numbered := sound.counted.numbered
  have size := length_decisions numbered
  have rejoinless : before.membership.Rejoinless vote := by
    intro proposal proposed joins
    obtain ⟨_, _, valid⟩ := proves.validAfter.proposals proposal proposed
    obtain ⟨rest, rfl⟩ := follows
    rw [next, Nat.add_sub_cancel, ← size, List.take_left' rfl] at valid
    rw [archivedMembers_eq, sound.bootstrap]
    exact ((NodeScheme.validateNodeState_joined joins).mp valid).2.2.2.2
  have valid := (proves.validateProposals_iff sound group follows (by omega)).mpr rejoinless
  obtain ⟨positive, place, votes, _, convinces⟩ := proves
  rw [membership_call]
  have outcome := before.membership.handled vote sapPrefix
  generalize before.membership.handleSignedVote vote sapPrefix = result at outcome
  have gen := convinces.gen_eq
  obtain ⟨⟨response, ok⟩, after⟩ := convinces.decides config before.given
    before.membership.consensus group sound.given
    (fun other known => by rw [(sound.votes other known).next, size, next])
    (fun earlier is => agreeing earlier decision is (by rw [← place, next, Nat.add_sub_cancel]))
  cases outcome with
  | refused invalid =>
    rw [valid] at invalid
    cases invalid
  | past _ past => omega
  | pending _ _ handled undecided =>
    rw [handled] at ok after
    rw [undecided response ok] at after
    cases after
  | @decided round voteResponse decided _ _ handled decides =>
    rw [handled] at after
    obtain rfl : decided = decision := Option.some.inj (decides.symm.trans after)
    refine ⟨_, rfl, ?_, C.decision_start _⟩
    rw [decisions, decisions_insert numbered]

/-! ## The whole batch -/

abbrev Proofs (C : MemberRounds N) (elders : C.Elders) (sapPrefix : Prefix)
    (bootstrapMembers : ExtTreeSet N.State) (log : List (Decision N.sections))
    (entries : List (Nat × (Decision N.sections × C.Round))) (votes : List C.SignedVote) : Prop :=
  List.Forall₂ (fun entry vote =>
    Proves C elders sapPrefix bootstrapMembers log entry.1 entry.2.1 vote) entries votes

/-- A membership that lags behind a log, with what is known of it. -/
structure Lagging (config : C.Config) (sapPrefix : Prefix) (bootstrapMembers : ExtTreeSet N.State)
    (log : List (Decision N.sections)) (before : Recorded C) : Prop where
  sound : Sound config (· = sapPrefix) bootstrapMembers before
  kept : Kept config (· = sapPrefix) bootstrapMembers before.membership
  follows : before.membership.decisions <+: log
  agreeing : before.membership.Agreeing log

variable {entries : List (Nat × (Decision N.sections × C.Round))} {votes : List C.SignedVote}
  {first : Nat}

theorem first_le_gen (proofs : Proofs C elders sapPrefix bootstrapMembers log entries votes)
    (numbers : entries.map Prod.fst = List.range' first entries.length) : ∀ vote ∈ votes, first ≤ C.gen vote := by
  induction proofs generalizing first with
  | nil => simp
  | cons proves later ih =>
    simp only [List.map_cons, List.length_cons, List.range'_succ, List.cons.injEq] at numbers
    obtain ⟨rfl, numbers⟩ := numbers
    refine List.forall_mem_cons.mpr ⟨proves.2.2.choose_spec.2.gen_eq.ge, fun vote listed => ?_⟩
    exact Nat.le_of_succ_le (ih numbers vote listed)

namespace Lagging

section

variable (lagging : Lagging config sapPrefix bootstrapMembers log before)
include lagging

theorem gen_eq :
    before.membership.gen = before.membership.decisions.length :=
  (length_decisions lagging.sound.counted.numbered).symm

theorem past (keepsDecision : KeepsDecision C)
    (proves : Proves C (C.elders config) sapPrefix bootstrapMembers log number decision vote)
    (reached : number ≤ before.membership.gen) (rejoinless : before.membership.Rejoinless vote) :
    ∃ answer after, before.membership.handleSignedVote vote sapPrefix = (.ok answer, after.membership) ∧
      Lagging config sapPrefix bootstrapMembers log after ∧
      after.membership.decisions = before.membership.decisions ∧
      after.membership.gen = before.membership.gen ∧
      after.membership.archivedMembers = before.membership.archivedMembers := by
  obtain ⟨answer, taken, same, round⟩ := proves.handle_past lagging.sound lagging.kept rfl
    lagging.follows reached rejoinless
  have sound := lagging.sound.call (show Call.Checked (· = sapPrefix)
    (.handleSignedVote vote sapPrefix) from rfl)
  have gen : (before.call (.handleSignedVote vote sapPrefix)).membership.gen =
      before.membership.gen := by
    rw [← length_decisions sound.counted.numbered, same, ← lagging.gen_eq]
  refine ⟨answer, _, taken, ⟨sound, lagging.kept.call keepsDecision lagging.sound rfl,
    same ▸ lagging.follows, ?_⟩, same, gen, ?_⟩
  · rw [Agreeing, round, gen]
    exact lagging.agreeing
  · rw [archivedMembers_eq, archivedMembers_eq, same, sound.bootstrap, lagging.sound.bootstrap]

theorem next (keepsDecision : KeepsDecision C)
    (proves : Proves C (C.elders config) sapPrefix bootstrapMembers log number decision vote)
    (following : number = before.membership.gen + 1) :
    ∃ answer after, before.membership.handleSignedVote vote sapPrefix = (.ok answer, after.membership) ∧
      Lagging config sapPrefix bootstrapMembers log after ∧
      after.membership.gen = number := by
  obtain ⟨answer, taken, added, undecided⟩ := proves.handle_next lagging.sound rfl lagging.follows
    lagging.agreeing following
  have sound := lagging.sound.call (show Call.Checked (· = sapPrefix)
    (.handleSignedVote vote sapPrefix) from rfl)
  have size := lagging.gen_eq
  refine ⟨answer, _, taken, ⟨sound, lagging.kept.call keepsDecision lagging.sound rfl, ?_, ?_⟩, ?_⟩
  · obtain ⟨rest, whole⟩ := lagging.follows
    have place := proves.2.1
    rw [following, Nat.add_sub_cancel, size, ← whole, List.getElem?_append_right (Nat.le_refl _),
      Nat.sub_self] at place
    cases rest with
    | nil => simp at place
    | cons head rest =>
      obtain rfl : head = decision := by simpa using place
      rw [added, ← whole]
      exact ⟨rest, by simp⟩
  · intro other _ decided
    rw [undecided] at decided
    cases decided
  · rw [← length_decisions sound.counted.numbered, added, following, size]
    simp

end

variable (keepsDecision : KeepsDecision C)
  (proofs : Proofs C (C.elders config) sapPrefix bootstrapMembers log entries votes)
  (numbers : entries.map Prod.fst = List.range' first entries.length)
include keepsDecision proofs numbers

/-- The proofs of the decisions from one that a membership has, or the next, bring it to the end of the
log, if none lets join again what the membership has archived. -/
theorem batch
    (complete : first + entries.length = log.length + 1)
    (lagging : Lagging config sapPrefix bootstrapMembers log before) (reached : first ≤ before.membership.gen + 1)
    (rejoinless : ∀ vote ∈ votes, C.gen vote ≤ before.membership.gen →
      before.membership.Rejoinless vote) (more : List C.SignedVote) :
    ∃ after, Lagging config sapPrefix bootstrapMembers log after ∧
      after.membership.decisions = log ∧
      (handleMembershipVotes sapPrefix (some before.membership) (votes ++ more)).2 =
        (handleMembershipVotes sapPrefix (some after.membership) more).2 := by
  induction proofs generalizing first before with
  | nil =>
    have size := lagging.gen_eq
    refine ⟨before, lagging, lagging.follows.eq_of_length_le ?_, rfl⟩
    simp only [List.length_nil] at complete
    omega
  | @cons entry vote entries votes proves later ih =>
    simp only [List.map_cons, List.length_cons, List.range'_succ, List.cons.injEq] at numbers
    obtain ⟨head, numbers⟩ := numbers
    rw [List.length_cons] at complete
    rw [head] at proves
    have gen := proves.2.2.choose_spec.2.gen_eq
    obtain ⟨here, rest⟩ := List.forall_mem_cons.mp rejoinless
    obtain held | new := Nat.lt_or_eq_of_le reached
    · have held : first ≤ before.membership.gen := Nat.le_of_lt_succ held
      obtain ⟨answer, after, taken, lagging', same, sameGen, archived⟩ :=
        lagging.past keepsDecision proves held (here (gen ▸ held))
      rw [List.cons_append, handleMembershipVotes_ok taken]
      refine ih numbers (by omega) lagging' (by omega) ?_
      intro other listed old
      rw [Rejoinless, archived]
      exact rest other listed (sameGen ▸ old)
    · obtain ⟨answer, after, taken, lagging', nextGen⟩ := lagging.next keepsDecision proves new
      rw [List.cons_append, handleMembershipVotes_ok taken]
      refine ih numbers (by omega) lagging' (by omega) ?_
      intro other listed old
      have ahead := first_le_gen later numbers other listed
      omega

/-- If one of the proofs lets join again what the membership has archived, the batch is dropped before
it brings anything new. -/
theorem dropped
    (lagging : Lagging config sapPrefix bootstrapMembers log before)
    (rejoins : ∃ vote ∈ votes, C.gen vote ≤ before.membership.gen ∧
      ¬ before.membership.Rejoinless vote) (more : List C.SignedVote) :
    ∃ after, (handleMembershipVotes sapPrefix (some before.membership) (votes ++ more)).2 =
        some after ∧ after.decisions = before.membership.decisions ∧
      after.gen = before.membership.gen := by
  induction proofs generalizing first before with
  | nil =>
    obtain ⟨_, listed, _⟩ := rejoins
    cases listed
  | @cons entry vote entries votes proves later ih =>
    simp only [List.map_cons, List.length_cons, List.range'_succ, List.cons.injEq] at numbers
    obtain ⟨head, numbers⟩ := numbers
    rw [head] at proves
    have gen := proves.2.2.choose_spec.2.gen_eq
    obtain ⟨bad, listed, old, rejoining⟩ := rejoins
    -- The generations before that of the vote in question are past as well.
    have held : first ≤ before.membership.gen := by
      obtain rfl | after := List.mem_cons.mp listed
      · omega
      · have ahead := first_le_gen later numbers bad after
        omega
    by_cases rejoinless : before.membership.Rejoinless vote
    · have after : bad ∈ votes := by
        obtain rfl | after := List.mem_cons.mp listed
        · exact absurd rejoinless rejoining
        · exact after
      obtain ⟨answer, next, taken, lagging', same, sameGen, archived⟩ :=
        lagging.past keepsDecision proves held rejoinless
      obtain ⟨final, result, unchanged, still⟩ := ih numbers lagging'
        ⟨bad, after, sameGen ▸ old, by rwa [Rejoinless, archived]⟩
      rw [List.cons_append, handleMembershipVotes_ok taken]
      exact ⟨final, result, unchanged.trans same, still.trans sameGen⟩
    · have invalid := mt (proves.validateProposals_iff lagging.sound rfl lagging.follows
        (by omega)).mp rejoinless
      have outcome := before.membership.handled vote sapPrefix
      generalize handled : before.membership.handleSignedVote vote sapPrefix = result at outcome
      cases outcome with
      | refused => exact ⟨_, handleMembershipVotes_error handled, rfl, rfl⟩
      | past valid => exact absurd valid invalid
      | pending valid => exact absurd valid invalid
      | decided valid => exact absurd valid invalid

end Lagging

theorem handleMembershipVotes_run (before : Recorded C) (sapPrefix : Prefix) (votes : List C.SignedVote) :
    ∃ calls : List (Call C), (∀ request ∈ calls, request.Checked (· = sapPrefix)) ∧
      (handleMembershipVotes sapPrefix (some before.membership) votes).2 =
        some (Runs.run Recorded.call before calls).membership := by
  induction votes generalizing before with
  | nil => exact ⟨[], by simp, rfl⟩
  | cons vote rest ih =>
    have same := membership_call before vote sapPrefix
    rcases handled : before.membership.handleSignedVote vote sapPrefix with ⟨error | answer, after⟩
    · refine ⟨[.handleSignedVote vote sapPrefix], by simp [Call.Checked], ?_⟩
      rw [handleMembershipVotes_error handled, Runs.run_cons, Runs.run_nil, same, handled]
    · rw [handled] at same
      obtain ⟨calls, checked, result⟩ := ih (before.call (.handleSignedVote vote sapPrefix))
      rw [same] at result
      refine ⟨.handleSignedVote vote sapPrefix :: calls, ?_, ?_⟩
      · exact List.forall_mem_cons.mpr ⟨rfl, checked⟩
      · rw [handleMembershipVotes_ok handled, Runs.run_cons]
        exact result

end

/-- A membership has the decisions of another, and no more if the other has no votes in progress. -/
def CaughtUp (ahead : Membership C) (after : Option (Membership C)) : Prop :=
  ∃ membership, after = some membership ∧ ahead.decisions <+: membership.decisions ∧
    (C.votes ahead.consensus = [] → membership.gen = ahead.gen)

/-- A lagging elder catches up exactly when it does not lag, or none of the proofs it is sent for
generations it already has lets a node join that it has archived since. -/
theorem catchUp_iff (keepsDecision : KeepsDecision C) (buildsSuperMajority : BuildsSuperMajority C)
    (aheadConfig behindConfig : C.Config) (group : C.elders aheadConfig = C.elders behindConfig)
    (bootstrapMembers : ExtTreeSet N.State) (sapPrefix : Prefix) (aheadCalls behindCalls : List (Call C))
    (aheadChecked : ∀ request ∈ aheadCalls, request.Checked (· = sapPrefix))
    (behindChecked : ∀ request ∈ behindCalls, request.Checked (· = sapPrefix)) (ahead behind : Membership C)
    (aheadRun : (Runs.run Recorded.call (Recorded.start aheadConfig bootstrapMembers) aheadCalls).membership = ahead)
    (behindRun : (Runs.run Recorded.call (Recorded.start behindConfig bootstrapMembers)
      behindCalls).membership = behind)
    (follows : behind.decisions <+: ahead.decisions) (agreeing : behind.Agreeing ahead.decisions)
    (gen : Nat) (asked : gen ≤ behind.gen) : ∃ catchup, catchupVotes gen ahead.history.toList = .ok catchup ∧
      handleMembershipAntiEntropyRequest (some ahead) gen = some (catchup ++ C.votes ahead.consensus) ∧
      (CaughtUp ahead (handleMembershipVotes sapPrefix (some behind) (catchup ++ C.votes ahead.consensus)).2 ↔
        ahead.gen = behind.gen ∨
          ∀ vote ∈ catchup, C.gen vote ≤ behind.gen → ∀ proposal ∈ C.proposals vote,
            proposal.state = .joined → proposal.name ∉ behind.archivedMembers) := by
  subst aheadRun behindRun
  generalize leader : Runs.run Recorded.call (Recorded.start aheadConfig bootstrapMembers)
    aheadCalls = ahead at *
  generalize follower : Runs.run Recorded.call (Recorded.start behindConfig bootstrapMembers)
    behindCalls = behind at *
  have aheadSound : Sound aheadConfig (· = sapPrefix) bootstrapMembers ahead :=
    leader ▸ (Sound.start aheadConfig _ bootstrapMembers).run aheadChecked
  have behindSound : Sound behindConfig (· = sapPrefix) bootstrapMembers behind :=
    follower ▸ (Sound.start behindConfig _ bootstrapMembers).run behindChecked
  have aheadKept : Kept aheadConfig (· = sapPrefix) bootstrapMembers ahead.membership :=
    leader ▸ Kept.run keepsDecision aheadConfig _ bootstrapMembers aheadChecked
  have behindKept : Kept behindConfig (· = sapPrefix) bootstrapMembers behind.membership :=
    follower ▸ Kept.run keepsDecision behindConfig _ bootstrapMembers behindChecked
  have lagging : Lagging behindConfig sapPrefix bootstrapMembers ahead.membership.decisions behind :=
    ⟨behindSound, behindKept, follows, agreeing⟩
  have aheadSize := length_decisions aheadSound.counted.numbered
  have behindSize := length_decisions behindSound.counted.numbered
  have shorter := follows.length_le
  obtain ⟨catchup, caught, proofs⟩ :=
    catchupVotes_proofs buildsSuperMajority aheadSound aheadKept gen
  rw [group] at proofs
  obtain ⟨numbers, complete⟩ := aheadSound.counted.numbered.filter_toList
    (show gen ≤ ahead.membership.gen + 1 by omega)
  refine ⟨catchup, caught, ?_, ?_⟩
  · rw [handleMembershipAntiEntropyRequest, antiEntropy, caught]
    rfl
  constructor
  · rintro ⟨final, result, pre, _⟩
    by_contra fails
    obtain ⟨lags, rejoins⟩ := not_or.mp fails
    push Not at rejoins
    obtain ⟨vote, listed, old, proposal, proposed, joins, archived⟩ := rejoins
    obtain ⟨after, ended, same, _⟩ := lagging.dropped keepsDecision proofs numbers
      ⟨vote, listed, old, fun rejoinless => rejoinless proposal proposed joins archived⟩
      (C.votes ahead.membership.consensus)
    obtain rfl : final = after := Option.some.inj (result.symm.trans ended)
    have longer := pre.length_le
    rw [same] at longer
    omega
  · intro condition
    by_cases rejoinless : ∀ vote ∈ catchup, C.gen vote ≤ behind.membership.gen →
        behind.membership.Rejoinless vote
    · obtain ⟨after, reached, all, goesOn⟩ := lagging.batch keepsDecision proofs numbers
        (by omega) (by omega) rejoinless (C.votes ahead.membership.consensus)
      obtain ⟨calls, _, result⟩ := handleMembershipVotes_run after sapPrefix
        (C.votes ahead.membership.consensus)
      rw [goesOn]
      refine ⟨_, result, all ▸ decisions_run reached.sound.counted calls, fun none => ?_⟩
      rw [none] at result
      rw [← Option.some.inj result, reached.gen_eq, all, aheadSize]
    · have same : ahead.membership.gen = behind.membership.gen := condition.resolve_right rejoinless
      push Not at rejoinless
      obtain ⟨vote, listed, old, rejoins⟩ := rejoinless
      obtain ⟨after, ended, unchanged, gen⟩ := lagging.dropped keepsDecision proofs numbers
        ⟨vote, listed, old, rejoins⟩ (C.votes ahead.membership.consensus)
      refine ⟨after, ended, ?_, fun _ => gen.trans same.symm⟩
      rw [unchanged, follows.eq_of_length (by omega)]

def sampleChurnVotes : List (Call sampleRounds) :=
  [.handleSignedVote ⟨0, 1, [.joined (sampleNodeId [] 1) none]⟩ default,
    .handleSignedVote ⟨0, 2, [.left (sampleNodeId [] 1) none]⟩ default,
    .handleSignedVote ⟨0, 3, [.joined (sampleNodeId [true] 2) none]⟩ default]

def sampleMembership (count : Nat) : Membership sampleRounds :=
  (Runs.run Recorded.call (Recorded.start (0 : Nat) ∅) (sampleChurnVotes.take count)).membership

theorem sampleMembership_follows (count more : Nat) :
    (sampleMembership count).decisions <+: (sampleMembership (count + more)).decisions := by
  have counted := ((Counted.start (C := sampleRounds) (0 : Nat) ∅).run (sampleChurnVotes.take count)).1
  rw [sampleMembership, sampleMembership, List.take_add, Runs.run_append]
  exact decisions_run counted _

theorem sampleMembership_agreeing {count : Nat} {log : List (Decision sampleNodes.sections)}
    (undecided : ((sampleMembership count).consensus.decided).isNone = true) :
    (sampleMembership count).Agreeing log := by
  intro decision other decided
  simp [Option.isNone_iff_eq_none.mp undecided] at decided

theorem catchUp_sampleChurnVotes :
    ∃ batch, handleMembershipAntiEntropyRequest (some (sampleMembership 2)) 1 = some batch ∧
      CaughtUp (sampleMembership 2) (handleMembershipVotes default (some (sampleMembership 1)) batch).2 := by
  have gen : (sampleMembership 1).gen = 1 := by decide +kernel
  obtain ⟨catchup, _, answered, caughtUp⟩ := catchUp_iff (C := sampleRounds)
    soloRounds_keepsDecision soloRounds_buildsSuperMajority (0 : Nat) (0 : Nat) rfl ∅ default
    (sampleChurnVotes.take 2) (sampleChurnVotes.take 1) (by simp [sampleChurnVotes, Call.Checked])
    (by simp [sampleChurnVotes, Call.Checked]) _ _ rfl rfl (sampleMembership_follows 1 1)
    (sampleMembership_agreeing (by decide +kernel)) 1 gen.ge
  refine ⟨_, answered, caughtUp.mpr (.inr fun vote _ _ proposal _ _ archived => ?_)⟩
  have nobody : (sampleMembership 1).archivedMembers.toList = [] := by decide +kernel
  have listed := ExtTreeSet.mem_toList.mpr archived
  rw [sampleMembership] at nobody
  rw [nobody] at listed
  cases listed

/-- An elder that asked before a join and has since seen the node leave is sent the join again, drops
the batch and misses the decision after it. -/
theorem catchUp_drops_batch : (sampleMembership 2).decisions <+: (sampleMembership 3).decisions ∧
    (sampleMembership 2).Agreeing (sampleMembership 3).decisions ∧
    ∃ batch, handleMembershipAntiEntropyRequest (some (sampleMembership 3)) 1 = some batch ∧
      ¬ CaughtUp (sampleMembership 3) (handleMembershipVotes default (some (sampleMembership 2)) batch).2 := by
  have answered : (handleMembershipAntiEntropyRequest (some (sampleMembership 3)) 1).isSome = true := by
    decide +kernel
  obtain ⟨batch, answer⟩ := Option.isSome_iff_exists.mp answered
  refine ⟨sampleMembership_follows 2 1, sampleMembership_agreeing (by decide +kernel), batch, answer, ?_⟩
  rintro ⟨final, result, longer, _⟩
  have short : (handleMembershipVotes default (some (sampleMembership 2))
      ((handleMembershipAntiEntropyRequest (some (sampleMembership 3)) 1).getD [])).2.map
        (·.decisions.length) = some 2 := by decide +kernel
  rw [answer, Option.getD_some] at short
  have all : (sampleMembership 3).decisions.length = 3 := by decide +kernel
  rw [result, Option.map_some, Option.some.injEq] at short
  have length := longer.length_le
  omega

end Membership

end SafeNetwork
