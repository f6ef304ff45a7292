import SafeNetwork.Library.OrderedMap
import SafeNetwork.NetworkKnowledge.SampleNodes
import SafeNetwork.Library.Runs

/-!
# Decisions on members

`section_member_history.rs`: the decisions since the last change of our SAP, each accepted when its
generation is the next one, and the members they lead to. Decisions arrive one by one and in lists,
more than once and in any order. One that comes too early is an error, one that comes again is
ignored, so that what is kept is the start of the sequence the section agreed on.
-/

namespace SafeNetwork

open Std

namespace NodeScheme

variable {N : NodeScheme}

def joinedMembers (states : ExtTreeSet N.State) : N.Members :=
  .ofList ((states.toList.filter (·.state.isJoined)).map fun node => (node.name, node))

def applyState (members : N.Members) (nodeState : N.State) : N.Members :=
  match nodeState.state with
  | .joined => members.insert nodeState.name nodeState
  | .left => members.erase nodeState.name
  | .relocated _ => members.erase nodeState.name

def applyDecision (members : N.Members) (decision : Decision N.sections) : N.Members :=
  decision.proposals.keys.foldl applyState members

/-! ## Members of a decision -/

variable {members : N.Members} {nodeState member : N.State} {nodeStates : List N.State}
  {states : ExtTreeSet N.State} {decision : Decision N.sections} {name : XorName}

theorem mem_of_joinedMembers (found : (joinedMembers states)[name]? = some member) :
    member ∈ states ∧ member.state = .joined ∧ member.name = name := by
  obtain ⟨node, listed, same⟩ := List.mem_map.mp (OrderedMap.mem_of_getElem?_ofList found)
  obtain ⟨rfl, rfl⟩ := Prod.mk.inj same
  obtain ⟨among, joined⟩ := List.mem_filter.mp listed
  exact ⟨ExtTreeSet.mem_toList.mp among, MembershipState.isJoined_iff.mp joined, rfl⟩

theorem mem_joinedMembers (listed : member ∈ states) (joined : member.state = .joined) :
    member.name ∈ joinedMembers states := by
  rw [joinedMembers, ExtTreeMap.mem_ofList, List.contains_iff_mem, List.map_map]
  refine List.mem_map.mpr ⟨member, List.mem_filter.mpr ⟨ExtTreeSet.mem_toList.mpr listed, ?_⟩, rfl⟩
  rw [joined]
  rfl

theorem of_applyState (found : (applyState members nodeState)[name]? = some member) : members[name]? = some member ∨
      member = nodeState ∧ nodeState.state = .joined ∧ nodeState.name = name := by
  unfold applyState at found
  split at found
  · rename_i joined
    rw [ExtTreeMap.getElem?_insert] at found
    split at found
    · rename_i same
      obtain rfl := Option.some.inj found
      exact .inr ⟨rfl, joined, Std.compare_eq_iff_eq.mp same⟩
    · exact .inl found
  all_goals
    rw [ExtTreeMap.getElem?_erase] at found
    split at found
    · cases found
    · exact .inl found

theorem mem_applyState (known : name ∈ members) (stays : nodeState.name = name → nodeState.state = .joined) :
    name ∈ applyState members nodeState := by
  unfold applyState
  split
  · exact ExtTreeMap.mem_insert.mpr (.inr known)
  all_goals
    rename_i leaves
    refine ExtTreeMap.mem_erase.mpr ⟨fun same => ?_, known⟩
    have joined := stays (Std.compare_eq_iff_eq.mp same)
    rw [leaves] at joined
    cases joined

theorem of_foldl_applyState (found : (nodeStates.foldl applyState members)[name]? = some member) :
    members[name]? = some member ∨
      member ∈ nodeStates ∧ member.state = .joined ∧ member.name = name := by
  induction nodeStates generalizing members with
  | nil => exact .inl found
  | cons nodeState rest ih =>
    obtain before | ⟨later, joined⟩ := ih found
    · obtain before | ⟨rfl, joined⟩ := of_applyState before
      · exact .inl before
      · exact .inr ⟨List.mem_cons_self .., joined⟩
    · exact .inr ⟨List.mem_cons_of_mem _ later, joined⟩

theorem mem_foldl_applyState (known : name ∈ members)
    (stays : ∀ nodeState ∈ nodeStates, nodeState.name = name → nodeState.state = .joined) :
    name ∈ nodeStates.foldl applyState members := by
  induction nodeStates generalizing members with
  | nil => exact known
  | cons nodeState rest ih =>
    obtain ⟨here, later⟩ := List.forall_mem_cons.mp stays
    exact ih (mem_applyState known here) later

end NodeScheme

namespace SectionMemberHistory

section

variable {N : NodeScheme}

/-- `SectionMemberHistory::members_at_gen` — joined members at the specific generation. -/
def membersAtGen (self : SectionMemberHistory N.sections) (gen : Nat) : N.Members :=
  if gen > self.decisions.length then ∅
  else (self.decisions.take gen).foldl NodeScheme.applyDecision
    (NodeScheme.joinedMembers self.initialMembers)

/-- `SectionMemberHistory::members` — the current members. -/
def members (self : SectionMemberHistory N.sections) : ExtTreeSet N.State :=
  .ofList ((self.membersAtGen self.decisions.length).toList.map (·.2))

def rejoins (self : SectionMemberHistory N.sections) (newDecision : Decision N.sections) : Bool :=
  newDecision.proposals.keys.any fun node =>
    node.state.isJoined && self.initialMembers.contains node

def archived (self : SectionMemberHistory N.sections) (newDecision : Decision N.sections) :
    ExtTreeMap XorName (Decision N.sections) :=
  (newDecision.proposals.keys.filter (!·.state.isJoined)).foldl
    (fun archive node => archive.insert node.name newDecision) self.archive

end

variable {M : MemberScheme}

/-- `SectionMemberHistory::update` — whether anything changed, and the history after the call. -/
def update (self : SectionMemberHistory M.sections) (sectionKey : M.PublicKey)
    (newDecision : Decision M.sections) : M.Result Bool × SectionMemberHistory M.sections :=
  let incomingGeneration := newDecision.generation
  if self.rejoins newDecision then (.ok false, self)
  else if incomingGeneration = self.decisions.length + 1 then
    if M.validate sectionKey newDecision then
      (.ok true, { self with
        decisions := self.decisions ++ [newDecision], archive := self.archived newDecision })
    else (.error .consensus, self)
  else if incomingGeneration ≤ self.decisions.length then (.ok false, self)
  else (.error .aeOutdated, self)

/-- `SectionMemberHistory::update_peers` — an error of one decision does not stop the others. -/
def updatePeers (self : SectionMemberHistory M.sections) (sectionKey : M.PublicKey)
    (peers : List (Decision M.sections)) : Bool × SectionMemberHistory M.sections :=
  peers.foldl (fun (thereWasAnUpdate, history) peer =>
    match history.update sectionKey peer with
    | (.ok updated, history) => (thereWasAnUpdate || updated, history)
    | (.error _, history) => (thereWasAnUpdate, history)) (false, self)

/-! ## One decision -/

variable {self : SectionMemberHistory M.sections} {sectionKey : M.PublicKey}
  {decision : Decision M.sections} {canonical : List (Decision M.sections)}

theorem update_decisions (self : SectionMemberHistory M.sections) (sectionKey : M.PublicKey)
    (decision : Decision M.sections) : (self.update sectionKey decision).2 = self ∨
      decision.generation = self.decisions.length + 1 ∧ M.validate sectionKey decision = true ∧
        (self.update sectionKey decision).2 = { self with
          decisions := self.decisions ++ [decision], archive := self.archived decision } := by
  unfold update
  by_cases again : self.rejoins decision = true
  · simp [again]
  · by_cases next : decision.generation = self.decisions.length + 1
    · by_cases valid : M.validate sectionKey decision = true
      · simp [again, next, valid]
      · simp [again, next, valid]
    · by_cases old : decision.generation ≤ self.decisions.length
      · simp [again, next, old]
      · simp [again, next, old]

theorem update_next (fresh : self.rejoins decision = false) (next : decision.generation = self.decisions.length + 1)
    (valid : M.validate sectionKey decision = true) : self.update sectionKey decision = (.ok true, { self with
      decisions := self.decisions ++ [decision], archive := self.archived decision }) := by
  simp [update, fresh, next, valid]

def updated (sectionKey : M.PublicKey) (self : SectionMemberHistory M.sections)
    (decision : Decision M.sections) : SectionMemberHistory M.sections :=
  (self.update sectionKey decision).2

theorem updatePeers_snd (self : SectionMemberHistory M.sections) (sectionKey : M.PublicKey)
    (peers : List (Decision M.sections)) : (self.updatePeers sectionKey peers).2 =
      Runs.run (updated sectionKey) self peers := by
  unfold updatePeers
  generalize false = changed
  induction peers generalizing self changed with
  | nil => rfl
  | cons peer rest ih =>
    rw [List.foldl_cons, Runs.run_cons]
    dsimp only [updated]
    rcases self.update sectionKey peer with ⟨_ | _, history⟩
    · exact ih history changed
    · exact ih history _

/-! ## Deliveries -/

/-- Decisions delivered at once: by `update` or by `update_peers`. -/
inductive Delivery (M : MemberScheme) where
  | single (decision : Decision M.sections)
  | list (decisions : List (Decision M.sections))

def Delivery.decisions : Delivery M → List (Decision M.sections)
  | .single decision => [decision]
  | .list decisions => decisions

def deliver (sectionKey : M.PublicKey) (self : SectionMemberHistory M.sections) :
    Delivery M → SectionMemberHistory M.sections
  | .single decision => (self.update sectionKey decision).2
  | .list decisions => (self.updatePeers sectionKey decisions).2

theorem run_deliver (self : SectionMemberHistory M.sections) (sectionKey : M.PublicKey)
    (deliveries : List (Delivery M)) : Runs.run (deliver sectionKey) self deliveries =
      Runs.run (updated sectionKey) self (deliveries.flatMap Delivery.decisions) := by
  induction deliveries generalizing self with
  | nil => rfl
  | cons delivery rest ih =>
    rw [List.flatMap_cons, Runs.run_append, Runs.run_cons, ih]
    cases delivery with
    | single decision => rfl
    | list decisions => rw [deliver, updatePeers_snd, Delivery.decisions]

/-- A sequence of decisions a section agreed on under one key: their generations count from one,
the key signed them and none joins an initial member again. -/
structure Canonical (sectionKey : M.PublicKey) (initialMembers : ExtTreeSet M.State)
    (canonical : List (Decision M.sections)) : Prop where
  generation : ∀ index (inside : index < canonical.length), canonical[index].generation = index + 1
  valid : ∀ decision ∈ canonical, M.validate sectionKey decision = true
  fresh : ∀ decision ∈ canonical, ∀ node ∈ decision.proposals.keys, node.state = .joined →
    node ∉ initialMembers

/-- A history that started from some members and took decisions of a sequence. -/
structure Follows (history : SectionMemberHistory M.sections)
    (initialMembers : ExtTreeSet M.State) (canonical : List (Decision M.sections)) : Prop where
  initial : history.initialMembers = initialMembers
  decisions : history.decisions <+: canonical

variable {initialMembers : ExtTreeSet M.State}

theorem Canonical.rejoins (agreed : Canonical sectionKey initialMembers canonical)
    (follows : self.Follows initialMembers canonical) (listed : decision ∈ canonical) :
    self.rejoins decision = false := by
  rw [SectionMemberHistory.rejoins, List.any_eq_false]
  intro node proposed joins
  rw [Bool.and_eq_true, MembershipState.isJoined_iff, follows.initial] at joins
  exact agreed.fresh decision listed node proposed joins.1 (ExtTreeSet.contains_iff_mem.mp joins.2)

theorem Canonical.append (agreed : Canonical sectionKey initialMembers canonical)
    {log : List (Decision M.sections)} (follows : log <+: canonical) (listed : decision ∈ canonical)
    (next : decision.generation = log.length + 1) : log ++ [decision] <+: canonical := by
  obtain ⟨index, inside, rfl⟩ := List.mem_iff_getElem.mp listed
  obtain rfl : index = log.length := by
    have position := agreed.generation index inside
    omega
  rw [List.prefix_iff_eq_take] at follows
  rw [List.prefix_iff_eq_take, List.length_append, List.length_singleton,
    List.take_succ_eq_append_getElem inside, ← follows]

theorem Follows.update (follows : self.Follows initialMembers canonical)
    (agreed : Canonical sectionKey initialMembers canonical)
    (delivered : decision ∈ canonical ∨ M.validate sectionKey decision = false) :
    (self.update sectionKey decision).2.Follows initialMembers canonical := by
  obtain unchanged | ⟨next, valid, changed⟩ := self.update_decisions sectionKey decision
  · rw [unchanged]
    exact follows
  · have listed : decision ∈ canonical := by
      obtain listed | invalid := delivered
      · exact listed
      · rw [valid] at invalid
        cases invalid
    rw [changed]
    exact ⟨follows.initial, agreed.append follows.decisions listed next⟩

theorem decisions_update (self : SectionMemberHistory M.sections) (sectionKey : M.PublicKey)
    (decision : Decision M.sections) : self.decisions <+: (self.update sectionKey decision).2.decisions := by
  obtain unchanged | ⟨_, _, changed⟩ := self.update_decisions sectionKey decision
  · rw [unchanged]
  · rw [changed]
    exact List.prefix_append _ _

theorem decisions_run (self : SectionMemberHistory M.sections) (sectionKey : M.PublicKey)
    (decisions : List (Decision M.sections)) : self.decisions <+: (Runs.run (updated sectionKey) self
      decisions).decisions :=
  Runs.run_induction
    (motive := fun history : SectionMemberHistory M.sections => self.decisions <+: history.decisions)
    (List.prefix_refl _) fun history kept decision _ =>
      kept.trans (history.decisions_update sectionKey decision)

section

variable (follows : self.Follows initialMembers canonical) (agreed : Canonical sectionKey initialMembers canonical)
include follows agreed

theorem Follows.run (decisions : List (Decision M.sections))
    (delivered : ∀ decision ∈ decisions, decision ∈ canonical ∨ M.validate sectionKey decision = false) :
    (Runs.run (updated sectionKey) self decisions).Follows initialMembers canonical :=
  Runs.run_induction (motive := (Follows · initialMembers canonical)) follows
    fun _ follows decision listed => follows.update agreed (delivered decision listed)

theorem Follows.take {count : Nat} (inside : count ≤ canonical.length) :
    count ≤ (Runs.run (updated sectionKey) self (canonical.take count)).decisions.length := by
  induction count with
  | zero => exact Nat.zero_le _
  | succ count ih =>
    have before := ih (Nat.le_of_succ_le inside)
    rw [List.take_succ_eq_append_getElem inside, Runs.run_append, Runs.run_cons, Runs.run_nil]
    have reached := follows.run agreed (canonical.take count) fun decision listed =>
      .inl (List.mem_of_mem_take listed)
    generalize Runs.run _ self (canonical.take count) = history at before reached
    -- A longer history has passed this generation; one of this length takes its decision.
    obtain longer | exactly := Nat.lt_or_eq_of_le before
    · exact longer.trans_le (history.decisions_update sectionKey _).length_le
    · have listed := List.getElem_mem inside
      rw [updated, update_next (agreed.rejoins reached listed)
        (by rw [agreed.generation count inside, exactly]) (agreed.valid _ listed)]
      simp [exactly]

end

section

variable (agreed : Canonical sectionKey initialMembers canonical) (before : SectionMemberHistory M.sections)
include agreed before

theorem Canonical.run_take {count : Nat} (inside : count ≤ canonical.length) :
    (Runs.run (updated sectionKey) (before.resetInitialMembers initialMembers)
      (canonical.take count)).initialMembers = initialMembers ∧
    (Runs.run (updated sectionKey) (before.resetInitialMembers initialMembers)
      (canonical.take count)).decisions = canonical.take count := by
  induction count with
  | zero => exact ⟨rfl, rfl⟩
  | succ count ih =>
    obtain ⟨initial, taken⟩ := ih (Nat.le_of_succ_le inside)
    rw [List.take_succ_eq_append_getElem inside, Runs.run_append, Runs.run_cons, Runs.run_nil]
    generalize Runs.run _ _ (canonical.take count) = history at initial taken
    have follows : history.Follows initialMembers canonical :=
      ⟨initial, taken ▸ List.take_prefix _ _⟩
    have listed := List.getElem_mem inside
    have next : canonical[count].generation = history.decisions.length + 1 := by
      rw [agreed.generation count inside, taken, List.length_take_of_le (Nat.le_of_succ_le inside)]
    rw [updated, update_next (agreed.rejoins follows listed) next (agreed.valid _ listed)]
    exact ⟨initial, by rw [taken]⟩

theorem Canonical.accepted {earlier later : List (Decision M.sections)}
    (split : canonical = earlier ++ decision :: later) :
    ((Runs.run (updated sectionKey) (before.resetInitialMembers initialMembers) earlier).update
      sectionKey decision).1 = .ok true := by
  have inside : earlier.length < canonical.length := by
    rw [split, List.length_append, List.length_cons]
    omega
  have taken : canonical.take earlier.length = earlier := by
    rw [split, List.take_left']
    rfl
  have here : canonical[earlier.length] = decision := by
    simp [split]
  obtain ⟨initial, kept⟩ := agreed.run_take before inside.le
  rw [taken] at initial kept
  generalize Runs.run _ _ earlier = history at initial kept
  have follows : history.Follows initialMembers canonical :=
    ⟨initial, by rw [kept, split]; exact List.prefix_append _ _⟩
  have listed : decision ∈ canonical := here ▸ List.getElem_mem inside
  have next : decision.generation = history.decisions.length + 1 := by
    rw [← here, agreed.generation _ inside, kept]
  rw [update_next (agreed.rejoins follows listed) next (agreed.valid _ listed)]

end

/-- Deliveries of canonical decisions, mixed with decisions that do not validate: the decisions are
always the first canonical ones, never get fewer, and are at least `count` once the list of the
first `count` was delivered. -/
theorem decisions_canonical (before : SectionMemberHistory M.sections) (sectionKey : M.PublicKey)
    (initialMembers : ExtTreeSet M.State) (canonical : List (Decision M.sections))
    (agreed : Canonical sectionKey initialMembers canonical) (deliveries : List (Delivery M))
    (delivered : ∀ delivery ∈ deliveries, ∀ decision ∈ delivery.decisions,
      decision ∈ canonical ∨ M.validate sectionKey decision = false) :
    let history := Runs.run (deliver sectionKey) (before.resetInitialMembers initialMembers)
    (history deliveries).decisions <+: canonical ∧
      (∀ earlier, earlier <+: deliveries →
        (history earlier).decisions <+: (history deliveries).decisions) ∧
      ∀ earlier count, count ≤ canonical.length →
        earlier ++ [.list (canonical.take count)] <+: deliveries →
          count ≤ (history deliveries).decisions.length := by
  have start : (before.resetInitialMembers initialMembers).Follows initialMembers canonical :=
    ⟨rfl, List.nil_prefix⟩
  have delivered : ∀ decision ∈ deliveries.flatMap Delivery.decisions,
      decision ∈ canonical ∨ M.validate sectionKey decision = false := by
    intro decision listed
    obtain ⟨delivery, among, listed⟩ := List.mem_flatMap.mp listed
    exact delivered delivery among decision listed
  have mono : ∀ earlier, earlier <+: deliveries →
      (Runs.run (deliver sectionKey) (before.resetInitialMembers initialMembers)
        earlier).decisions <+: (Runs.run (deliver sectionKey)
          (before.resetInitialMembers initialMembers) deliveries).decisions := by
    rintro earlier ⟨later, rfl⟩
    rw [Runs.run_append, run_deliver _ sectionKey later]
    exact decisions_run _ sectionKey _
  refine ⟨?_, mono, ?_⟩
  · rw [run_deliver]
    exact (start.run agreed _ delivered).decisions
  · intro earlier count inside among
    refine Nat.le_trans ?_ (mono _ among).length_le
    obtain ⟨later, rfl⟩ := among
    rw [Runs.run_append, run_deliver, run_deliver, List.flatMap_singleton, Delivery.decisions]
    refine (start.run agreed _ fun decision listed => delivered decision ?_).take agreed inside
    simp [listed]

def sampleJoins : List (Decision sampleNodes.sections) :=
  [sampleDecision 0 1 [.joined (sampleNodeId [] 1) none],
    sampleDecision 0 2 [.joined (sampleNodeId [true] 2) none]]

def sampleDeliveries : List (Delivery sampleNodes) :=
  [.list [sampleDecision 0 2 [.joined (sampleNodeId [true] 2) none],
    sampleDecision 1 1 [.joined (sampleNodeId [] 3) none]], .list sampleJoins]

def sampleHistory : SectionMemberHistory sampleNodes.sections :=
  Runs.run (deliver (0 : Nat)) (resetInitialMembers {} ∅) sampleDeliveries

theorem decisions_canonical_sampleJoins :
    sampleHistory.decisions <+: sampleJoins ∧ 2 ≤ sampleHistory.decisions.length := by
  have agreed : Canonical (M := sampleNodes) (0 : Nat) ∅ sampleJoins :=
    { generation := by decide +kernel
      valid := by decide +kernel
      fresh := by simp }
  have delivered : ∀ delivery ∈ sampleDeliveries, ∀ decision ∈ delivery.decisions,
      decision ∈ sampleJoins ∨ sampleNodes.validate (0 : Nat) decision = false := by
    simp only [sampleDeliveries, List.forall_mem_cons, Delivery.decisions]
    refine ⟨⟨.inl (by simp [sampleJoins]), .inr (by decide +kernel), by simp⟩,
      fun _ => .inl, by simp⟩
  have all := decisions_canonical (M := sampleNodes) {} (0 : Nat) ∅ sampleJoins agreed
    sampleDeliveries delivered
  exact ⟨all.1, all.2.2 (sampleDeliveries.take 1) 2 (by decide) (List.prefix_refl _)⟩

end SectionMemberHistory

end SafeNetwork
