import SafeNetwork.Node.MembershipRun

/-!
# The log of a membership

Every decision of a membership is one of a round that was given valid votes only: votes for its
generation whose proposals are valid for the members and the archive that the decisions before it lead
to. What votes and rounds a membership holds is derived from this once, for all calls but raw casts,
which the source makes only from `propose`.

The decisions a membership emits are then the ones its network knowledge accepts, and the two agree on
the members of every generation: an initial member never joins again, as its name is a member's until
it is archived.
-/

namespace SafeNetwork

open Std Consensus OrderedMap

namespace Membership

variable {N : NodeScheme} {C : MemberRounds N} {self : Membership C} {signedVote : C.SignedVote}
  {sapPrefix : Prefix} {bootstrapMembers : ExtTreeSet N.State} {log : List (Decision N.sections)}
  {config : C.Config} {allowed : Prefix → Prop} {name : XorName} {request : Call C} {vote : C.SignedVote}
  {round : C.Round} {decision : Decision N.sections} {proposal : N.State}

/-! ## Archived names -/

theorem mem_archiveStates {archive : ExtTreeSet XorName} {nodeStates : List N.State} : name ∈ archiveStates archive nodeStates ↔
      name ∈ archive ∨ ∃ nodeState ∈ nodeStates, nodeState.state ≠ .joined ∧ nodeState.name = name := by
  induction nodeStates generalizing archive with
  | nil => simp [archiveStates]
  | cons nodeState rest ih =>
    rw [archiveStates, List.foldl_cons, ← archiveStates, ih, List.exists_mem_cons_iff]
    cases state : nodeState.state with
    | joined => simp
    | left =>
      rw [ExtTreeSet.mem_insert, Std.compare_eq_iff_eq]
      simp only [ne_eq, reduceCtorEq, not_false_eq_true, true_and]
      tauto
    | relocated trigger =>
      rw [ExtTreeSet.mem_insert, Std.compare_eq_iff_eq]
      simp only [ne_eq, reduceCtorEq, not_false_eq_true, true_and]
      tauto

theorem mem_archivedAfter : name ∈ archivedAfter bootstrapMembers log ↔
    (∃ nodeState ∈ bootstrapMembers, nodeState.state ≠ .joined ∧ nodeState.name = name) ∨
      ∃ decision ∈ log, ∃ nodeState ∈ decision.proposals.keys, nodeState.state ≠ .joined ∧ nodeState.name = name := by
  have folded : ∀ archive : ExtTreeSet XorName,
      name ∈ log.foldl (fun archive decision => archiveStates archive decision.proposals.keys)
        archive ↔ name ∈ archive ∨ ∃ decision ∈ log, ∃ nodeState ∈ decision.proposals.keys,
          nodeState.state ≠ .joined ∧ nodeState.name = name := by
    induction log with
    | nil => simp
    | cons decision rest ih =>
      intro archive
      rw [List.foldl_cons, ih, mem_archiveStates, List.exists_mem_cons_iff, or_assoc]
  rw [archivedAfter, folded, mem_archiveStates]
  simp only [ExtTreeSet.not_mem_empty, false_or, ExtTreeSet.mem_toList]

theorem archivedAfter_mono {earlier : List (Decision N.sections)} (first : earlier <+: log) (archived : name ∈ archivedAfter bootstrapMembers earlier) :
    name ∈ archivedAfter bootstrapMembers log := by
  rw [mem_archivedAfter] at archived ⊢
  obtain initial | ⟨decision, listed, left⟩ := archived
  · exact .inl initial
  · exact .inr ⟨decision, first.subset listed, left⟩

/-! ## Valid votes -/

/-- A vote that is valid after some decisions: it is for the next generation, signed by an elder, not
outdated, and its proposals are valid under one of the allowed prefixes. -/
structure ValidAfter (C : MemberRounds N) (elders : C.Elders) (allowed : Prefix → Prop)
    (bootstrapMembers : ExtTreeSet N.State) (log : List (Decision N.sections))
    (vote : C.SignedVote) : Prop where
  next : C.gen vote = log.length + 1
  signed : C.validateSignature elders vote = .ok ()
  fresh : ∀ last ∈ log.getLast?, ∃ proposal ∈ C.proposals vote, proposal ∉ last.proposals
  proposals : ∀ proposal ∈ C.proposals vote, ∃ sapPrefix, allowed sapPrefix ∧
    NodeScheme.validateNodeState proposal sapPrefix (membersAfter bootstrapMembers log)
      (archivedAfter bootstrapMembers log) = .ok ()

section

variable (numbered : Numbered self.history self.gen)
include numbered

theorem getElem?_decisions (index : Nat) :
    self.decisions[index]? = self.history[index + 1]?.map (·.1) := by
  rw [decisions, List.getElem?_map, numbered.getElem?_toList, Option.map_map]
  rfl

theorem isOutdated_eq_false (reached : C.gen signedVote ≤ self.gen + 1) :
    self.isOutdated signedVote = false ↔
      ∀ last ∈ (self.decisions.take (C.gen signedVote - 1)).getLast?,
        ∃ proposal ∈ C.proposals signedVote, proposal ∉ last.proposals := by
  rw [isOutdated]
  by_cases later : C.gen signedVote > 1
  · obtain ⟨index, position⟩ : ∃ index, C.gen signedVote = index + 2 := ⟨C.gen signedVote - 2, by omega⟩
    have inside : index < self.decisions.length := by
      rw [length_decisions numbered]
      omega
    have last : (self.decisions.take (index + 1)).getLast? = some self.decisions[index] := by
      rw [List.take_succ_eq_append_getElem inside, List.getLast?_append]
      rfl
    have entry := getElem?_decisions numbered index
    rw [List.getElem?_eq_getElem inside, eq_comm, Option.map_eq_some_iff] at entry
    obtain ⟨⟨decision, round⟩, found, same⟩ := entry
    have number : C.gen signedVote - 1 = index + 1 := by omega
    rw [number, last, ← same]
    simp [later, found]
  · have first : C.gen signedVote - 1 = 0 := by omega
    simp [later, first]

theorem ValidAfter.of_validateProposals (permitted : allowed sapPrefix)
    (valid : self.validateProposals signedVote sapPrefix = .ok ()) :
    ValidAfter C (C.elders (C.config self.consensus)) allowed self.bootstrapMembers
      (self.decisions.take (C.gen signedVote - 1)) signedVote := by
  obtain ⟨fresh, signed, round, members, found, proposals⟩ := validateProposals_ok.mp valid
  obtain ⟨positive, reached⟩ := (consensusAtGen_ok numbered).mp round
  have size := length_decisions numbered
  rw [sectionMembers_eq numbered (by omega)] at found
  obtain rfl := Except.ok.inj found
  refine ⟨?_, signed, (isOutdated_eq_false numbered reached).mp fresh, ?_⟩
  · rw [List.length_take, size]
    omega
  · intro proposal listed
    have checked := proposals proposal listed
    refine ⟨sapPrefix, permitted, (NodeScheme.validateNodeState_archived checked).mpr ?_⟩
    intro joins archived
    refine (NodeScheme.validateNodeState_archived checked).mp checked joins ?_
    rw [archivedMembers_eq]
    exact archivedAfter_mono (List.take_prefix _ _) archived

/-- A valid vote passes `validate_proposals` as long as no node that it lets join has been archived
by now. -/
theorem ValidAfter.validateProposals_iff
    (reached : C.gen signedVote ≤ self.gen + 1)
    (valid : ValidAfter C (C.elders (C.config self.consensus)) (· = sapPrefix)
      self.bootstrapMembers (self.decisions.take (C.gen signedVote - 1)) signedVote) :
    self.validateProposals signedVote sapPrefix = .ok () ↔
      ∀ proposal ∈ C.proposals signedVote, proposal.state = .joined → proposal.name ∉ self.archivedMembers := by
  have positive : 1 ≤ C.gen signedVote := by
    rw [valid.next]
    omega
  have members := sectionMembers_eq numbered (show C.gen signedVote - 1 ≤ self.gen by omega)
  have checked : ∀ proposal ∈ C.proposals signedVote,
      NodeScheme.validateNodeState proposal sapPrefix (membersAfter self.bootstrapMembers
        (self.decisions.take (C.gen signedVote - 1))) self.archivedMembers = .ok () ↔
          (proposal.state = .joined → proposal.name ∉ self.archivedMembers) := by
    intro proposal listed
    obtain ⟨_, rfl, before⟩ := valid.proposals proposal listed
    exact NodeScheme.validateNodeState_archived before
  rw [validateProposals_ok]
  constructor
  · rintro ⟨_, _, _, _, found, proposals⟩ proposal listed
    rw [members] at found
    obtain rfl := Except.ok.inj found
    exact (checked proposal listed).mp (proposals proposal listed)
  · intro joins
    exact ⟨(isOutdated_eq_false numbered reached).mpr valid.fresh, valid.signed,
      (consensusAtGen_ok numbered).mpr ⟨positive, reached⟩, _, members, fun proposal listed =>
        (checked proposal listed).mpr (joins proposal listed)⟩

end

/-! ## Sound memberships -/

def Call.Checked (allowed : Prefix → Prop) : Call C → Prop
  | .propose _ sapPrefix => allowed sapPrefix
  | .castVote _ => False
  | .handleSignedVote _ sapPrefix => allowed sapPrefix

def Agreed (C : MemberRounds N) (config : C.Config) (allowed : Prefix → Prop)
    (bootstrapMembers : ExtTreeSet N.State) (log : List (Decision N.sections))
    (decision : Decision N.sections) : Prop :=
  ∃ votes round, Given C config votes round ∧
    (∀ vote ∈ votes, ValidAfter C (C.elders config) allowed bootstrapMembers log vote) ∧
    C.decision round = some decision

structure Sound (config : C.Config) (allowed : Prefix → Prop)
    (bootstrapMembers : ExtTreeSet N.State) (after : Recorded C) : Prop where
  counted : Counted after
  bootstrap : after.membership.bootstrapMembers = bootstrapMembers
  given : Given C config after.given after.membership.consensus
  votes : ∀ vote ∈ after.given,
    ValidAfter C (C.elders config) allowed bootstrapMembers after.membership.decisions vote
  agreed : ∀ index (inside : index < after.membership.decisions.length),
    Agreed C config allowed bootstrapMembers (after.membership.decisions.take index)
      after.membership.decisions[index]

theorem Gives.valid (gives : self.Gives request vote round) (checked : request.Checked allowed)
    (numbered : Numbered self.history self.gen) :
    ValidAfter C (C.elders (C.config self.consensus)) allowed self.bootstrapMembers self.decisions vote := by
  have all : self.decisions.take self.gen = self.decisions := by
    rw [← length_decisions numbered, List.take_length]
  cases gives with
  | propose proposed =>
    obtain ⟨next, valid⟩ := proposedVote_eq_some proposed
    have after := ValidAfter.of_validateProposals numbered checked valid
    rwa [next, Nat.add_sub_cancel, all] at after
  | castVote => exact checked.elim
  | handle next valid =>
    have after := ValidAfter.of_validateProposals numbered checked valid
    rwa [next, Nat.add_sub_cancel, all] at after

theorem Gives.given (gives : self.Gives request vote round) {votes : List C.SignedVote}
    (before : Given C config votes self.consensus) : Given C config (vote :: votes) round := by
  cases gives with
  | propose proposed => exact before.cast vote
  | castVote => exact before.cast vote
  | handle next valid => exact before.handle vote

namespace Sound

variable {before after : Recorded C}

theorem start (config : C.Config) (allowed : Prefix → Prop) (bootstrapMembers : ExtTreeSet N.State) :
    Sound (C := C) config allowed bootstrapMembers (Recorded.start config bootstrapMembers) where
  counted := Counted.start config bootstrapMembers
  bootstrap := rfl
  given := .start
  votes := by simp [Recorded.start]
  agreed := by simp [Recorded.start]

theorem agreed_append {decision : Decision N.sections} (agreed : ∀ index (inside : index < log.length),
      Agreed C config allowed bootstrapMembers (log.take index) log[index])
    (last : Agreed C config allowed bootstrapMembers log decision) :
    ∀ index (inside : index < (log ++ [decision]).length),
      Agreed C config allowed bootstrapMembers ((log ++ [decision]).take index) (log ++ [decision])[index] := by
  intro index inside
  rw [List.length_append, List.length_singleton] at inside
  obtain earlier | rfl := Nat.lt_or_eq_of_le (Nat.le_of_lt_succ inside)
  · rw [List.take_append_of_le_length earlier.le, List.getElem_append_left earlier]
    exact agreed index earlier
  · rw [List.take_left', List.getElem_concat_length]
    · exact last
    · rfl
    · rfl

variable (sound : Sound config allowed bootstrapMembers before)
include sound

theorem config_eq :
    C.config before.membership.consensus = config := sound.given.config_eq

theorem call {request : Call C}
    (checked : request.Checked allowed) : Sound config allowed bootstrapMembers (before.call request) := by
  have counted := (sound.counted.call request).1
  have outcome := called before request
  generalize before.call request = after at outcome counted
  cases outcome with
  | unchanged => exact sound
  | past handles valid past found =>
    have same := decisions_modify before.membership.history
    refine ⟨counted, sound.bootstrap, sound.given, ?_, ?_⟩
    · rw [decisions, same]
      exact sound.votes
    · simp only [decisions, same]
      exact sound.agreed
  | @pending vote round gives =>
    have valid := gives.valid checked sound.counted.numbered
    rw [sound.config_eq, sound.bootstrap] at valid
    exact ⟨counted, sound.bootstrap, gives.given sound.given,
      List.forall_mem_cons.mpr ⟨valid, sound.votes⟩, sound.agreed⟩
  | @decided vote round decision gives decides =>
    have valid := gives.valid checked sound.counted.numbered
    rw [sound.config_eq, sound.bootstrap] at valid
    have given := gives.given sound.given
    refine ⟨counted, sound.bootstrap, ?_, by simp, ?_⟩
    · rw [given.config_eq]
      exact .start
    · have last : Agreed C config allowed bootstrapMembers before.membership.decisions decision :=
        ⟨vote :: before.given, round, given, List.forall_mem_cons.mpr ⟨valid, sound.votes⟩, decides⟩
      simp only [decisions, decisions_insert sound.counted.numbered]
      exact agreed_append sound.agreed last

theorem run {calls : List (Call C)}
    (checked : ∀ request ∈ calls, request.Checked allowed) :
    Sound config allowed bootstrapMembers (Runs.run Recorded.call before calls) :=
  Runs.run_induction sound fun _ sound request listed => sound.call (checked request listed)

end Sound

/-! ## Decisions -/

theorem membersAfter_append (bootstrapMembers : ExtTreeSet N.State)
    (log : List (Decision N.sections)) (decision : Decision N.sections) :
    membersAfter bootstrapMembers (log ++ [decision]) =
      NodeScheme.applyDecision (membersAfter bootstrapMembers log) decision := by
  rw [membersAfter, List.foldl_append]
  rfl

theorem Agreed.validate (agreed : Agreed C config allowed bootstrapMembers log decision)
    (decidesProposals : DecidesProposals C fun decision => decision.proposals.keys) (decided : proposal ∈ decision.proposals.keys) :
    ∃ sapPrefix, allowed sapPrefix ∧ NodeScheme.validateNodeState proposal sapPrefix
      (membersAfter bootstrapMembers log) (archivedAfter bootstrapMembers log) = .ok () := by
  obtain ⟨votes, round, given, valid, decides⟩ := agreed
  obtain ⟨vote, known, proposed⟩ :=
    decidesProposals config votes round decision given decides proposal decided
  exact (valid vote known).proposals proposal proposed

theorem Agreed.generation_eq (agreed : Agreed C config allowed bootstrapMembers log decision)
    (decidesGeneration : DecidesGeneration C Decision.generation) : decision.generation = log.length + 1 := by
  obtain ⟨votes, round, given, valid, decides⟩ := agreed
  exact decidesGeneration config votes round decision _ given
    (fun vote known => (valid vote known).next) decides

theorem known_or_archived {member : N.State} (listed : member ∈ bootstrapMembers)
    (joined : member.state = .joined) (log : List (Decision N.sections)) :
    member.name ∈ membersAfter bootstrapMembers log ∨
      member.name ∈ archivedAfter bootstrapMembers log := by
  induction log using List.reverseRecOn with
  | nil => exact .inl (NodeScheme.mem_joinedMembers listed joined)
  | append_singleton log decision ih =>
    obtain known | archived := ih
    · by_cases leaves : ∃ nodeState ∈ decision.proposals.keys,
          nodeState.state ≠ .joined ∧ nodeState.name = member.name
      · exact .inr (mem_archivedAfter.mpr (.inr ⟨decision, by simp, leaves⟩))
      · rw [membersAfter_append]
        refine .inl (NodeScheme.mem_foldl_applyState known fun nodeState proposed same => ?_)
        by_contra left
        exact leaves ⟨nodeState, proposed, left, same⟩
    · exact .inr (archivedAfter_mono (List.prefix_append _ _) archived)

theorem not_mem_of_validate (joins : proposal.state = .joined)
    (valid : NodeScheme.validateNodeState proposal sapPrefix (membersAfter bootstrapMembers log)
      (archivedAfter bootstrapMembers log) = .ok ()) : proposal ∉ bootstrapMembers := by
  intro initial
  obtain ⟨_, new, _, _, unarchived⟩ := (NodeScheme.validateNodeState_joined joins).mp valid
  obtain known | archived := known_or_archived initial joins log
  · exact new known
  · exact unarchived archived

/-! ## Lock-step -/

section

variable {M : MemberScheme} {C : MemberRounds M.toNodeScheme} {config : C.Config}
  {initialMembers : ExtTreeSet M.State} {after : Recorded C}

theorem Sound.canonical {sectionKey : C.Elders → M.PublicKey} (sound : Sound config allowed initialMembers after)
    (decidesProposals : DecidesProposals C fun decision => decision.proposals.keys)
    (decidesGeneration : DecidesGeneration C Decision.generation)
    (decidesValid : DecidesValid C fun elders decision =>
      M.validate (sectionKey elders) decision = true) :
    SectionMemberHistory.Canonical (sectionKey (C.elders config)) initialMembers after.emitted := by
  rw [sound.counted.emitted]
  refine ⟨?_, ?_, ?_⟩
  · intro index inside
    rw [(sound.agreed index inside).generation_eq decidesGeneration,
      List.length_take_of_le inside.le]
  · intro decision listed
    obtain ⟨index, inside, rfl⟩ := List.mem_iff_getElem.mp listed
    obtain ⟨votes, round, given, _, decides⟩ := sound.agreed index inside
    exact decidesValid config votes round _ given decides
  · intro decision listed node proposed joins
    obtain ⟨index, inside, rfl⟩ := List.mem_iff_getElem.mp listed
    obtain ⟨_, _, valid⟩ := (sound.agreed index inside).validate decidesProposals proposed
    exact not_mem_of_validate joins valid

/-- An elder's membership and its network knowledge stay in lock-step: for any votes handled and
proposals made, each decision emitted is accepted by the history of members, and both have the same
members at every generation. -/
theorem lockStep (sectionKey : C.Elders → M.PublicKey)
    (decidesProposals : DecidesProposals C fun decision => decision.proposals.keys)
    (decidesGeneration : DecidesGeneration C Decision.generation)
    (decidesValid : DecidesValid C fun elders decision =>
      M.validate (sectionKey elders) decision = true)
    (config : C.Config) (initialMembers : ExtTreeSet M.State) (calls : List (Call C))
    (checked : ∀ request ∈ calls, request.Checked fun _ => True) (before : SectionMemberHistory M.sections) :
    let after := Runs.run Recorded.call (Recorded.start config initialMembers) calls
    let key := sectionKey (C.elders config)
    let knowledge := Runs.run (SectionMemberHistory.updated key)
      (before.resetInitialMembers initialMembers)
    (∀ earlier decision later, after.emitted = earlier ++ decision :: later →
      ((knowledge earlier).update key decision).1 = .ok true) ∧
    ∀ gen ≤ after.membership.gen,
      after.membership.sectionMembers gen = .ok ((knowledge after.emitted).membersAtGen gen) := by
  intro after key knowledge
  have sound : Sound config (fun _ => True) initialMembers after :=
    (Sound.start config _ initialMembers).run checked
  have canonical : SectionMemberHistory.Canonical key initialMembers after.emitted :=
    sound.canonical decidesProposals decidesGeneration decidesValid
  refine ⟨fun earlier decision later split => canonical.accepted before split, ?_⟩
  intro gen reached
  obtain ⟨initial, kept⟩ := canonical.run_take before (Nat.le_refl _)
  rw [List.take_length] at initial kept
  have length : gen ≤ after.emitted.length := by
    rw [sound.counted.emitted, length_decisions sound.counted.numbered]
    exact reached
  rw [sectionMembers_eq sound.counted.numbered reached, SectionMemberHistory.membersAtGen, kept,
    initial, if_neg (Nat.not_lt.mpr length), sound.bootstrap, ← sound.counted.emitted]
  rfl

end

def sampleJoinLeave : List (Call sampleRounds) :=
  [.handleSignedVote ⟨0, 1, [.joined (sampleNodeId [true] 2) none]⟩ default,
    .handleSignedVote ⟨0, 2, [.left (sampleNodeId [] 1) none]⟩ default]

def sampleInitial : ExtTreeSet sampleNodes.State :=
  (∅ : ExtTreeSet sampleNodes.State).insert (.joined (sampleNodeId [] 1) none)

def sampleJoinedLeft : Recorded sampleRounds :=
  Runs.run Recorded.call (Recorded.start (0 : Nat) sampleInitial) sampleJoinLeave

theorem lockStep_sampleJoinLeave : sampleJoinedLeft.membership.gen = 2 ∧
    sampleJoinedLeft.membership.sectionMembers 2 = .ok (SectionMemberHistory.membersAtGen
      (Runs.run (SectionMemberHistory.updated (M := sampleNodes) (0 : Nat))
        (SectionMemberHistory.resetInitialMembers {} sampleInitial) sampleJoinedLeft.emitted) 2) := by
  have gen : sampleJoinedLeft.membership.gen = 2 := by decide +kernel
  exact ⟨gen, (lockStep (M := sampleNodes) (C := sampleRounds) (fun elders => elders)
    sampleRounds_decidesProposals sampleRounds_decidesGeneration sampleRounds_decidesValid (0 : Nat)
    sampleInitial sampleJoinLeave (by simp [sampleJoinLeave, Call.Checked]) {}).2 2 gen.ge⟩

end Membership

end SafeNetwork
