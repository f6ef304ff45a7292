import SafeNetwork.Library.Runs
import SafeNetwork.XorName

/-!
# Fault detection

`sn_fault_detection`: issues are recorded against nodes, with the time and by their type, and count against a
node until they are fulfilled or expire, or until the node leaves the section. Time stands still during a call.

The issues of one type are not among those that expire, and a node that leaves loses its issues only if it
was tracked, although issues are recorded for any name.
-/

namespace SafeNetwork

open Std Runs

inductive IssueType where
  | aeProbeMsg
  | dkg
  | elderVoting
  | communication
  | networkKnowledge
  | requestOperation
deriving DecidableEq

/-- `RECENT_ISSUE_DURATION`, in nanoseconds. -/
def recentIssueDuration : Nat := 60 * 10 * 10 ^ 9

abbrev TimedTracker : Type := ExtTreeMap XorName (List Nat)

structure FaultDetection where
  /-- `dkg_issues`, `elder_voting_issues` and the four others, by the type of issue they track. -/
  trackers : IssueType → TimedTracker
  nonElderNodes : ExtTreeSet XorName
  elders : ExtTreeSet XorName

namespace FaultDetection

def new (nonElderNodes elders : ExtTreeSet XorName) : FaultDetection := ⟨fun _ => ∅, nonElderNodes, elders⟩

def onTracker (self : FaultDetection) (issueType : IssueType) (change : TimedTracker → TimedTracker) :
    FaultDetection :=
  { self with trackers := Function.update self.trackers issueType (change (self.trackers issueType)) }

def trackIssue (self : FaultDetection) (now : Nat) (nodeId : XorName) (issueType : IssueType) : FaultDetection :=
  self.onTracker issueType fun tracker => tracker.insert nodeId (tracker[nodeId]?.getD [] ++ [now])

def popFront (self : FaultDetection) (issueType : IssueType) (nodeId : XorName) : FaultDetection :=
  self.onTracker issueType fun tracker => tracker.modify nodeId List.tail

def dkgAckFulfilled (self : FaultDetection) : XorName → FaultDetection := self.popFront .dkg

def elderVoteReceived (self : FaultDetection) : XorName → FaultDetection := self.popFront .elderVoting

def aeUpdateMsgReceived (self : FaultDetection) : XorName → FaultDetection := self.popFront .aeProbeMsg

def allCurrentNodes (self : FaultDetection) : ExtTreeSet XorName :=
  self.elders.toList.foldl .insert (self.nonElderNodes.toList.foldl .insert ∅)

def addNewNode (self : FaultDetection) (node : XorName) : FaultDetection :=
  { self with nonElderNodes := self.nonElderNodes.insert node }

/-- `FaultDetection::update_and_only_retain_members`. All six trackers are purged. -/
def updateAndOnlyRetainMembers (self : FaultDetection) (nonElderNodes elders : ExtTreeSet XorName) :
    FaultDetection :=
  let currentMembers := self.allCurrentNodes
  let nodesBeingRemoved := currentMembers.toList.filter fun node =>
    !nonElderNodes.contains node && !elders.contains node
  { trackers := fun issueType => nodesBeingRemoved.foldl .erase (self.trackers issueType)
    nonElderNodes
    elders }

def cleanupTimeSensistiveChecks (self : FaultDetection) (now : Nat) : FaultDetection :=
  [IssueType.communication, .aeProbeMsg, .networkKnowledge, .dkg, .requestOperation].foldl (fun self issueType =>
    self.onTracker issueType (.map fun _ issues =>
      issues.filter fun time => now - time < recentIssueDuration)) self

def getNodeIssueCountForType (self : FaultDetection) (node : XorName) (issueType : IssueType) : Nat :=
  match (self.trackers issueType)[node]? with
  | some issues => issues.length
  | none => 0

/-- `FaultDetection::get_faulty_nodes`, where `faulty` computes the scores from the counts. -/
def getFaultyNodes (faulty : (XorName → IssueType → Nat) → ExtTreeSet XorName → ExtTreeSet XorName → List XorName)
    (self : FaultDetection) (now : Nat) : List XorName × FaultDetection :=
  let self := self.cleanupTimeSensistiveChecks now
  (faulty self.getNodeIssueCountForType self.nonElderNodes self.elders, self)

/-! ## The issues of a node -/

def issuesOf (self : FaultDetection) (issueType : IssueType) (node : XorName) : List Nat :=
  (self.trackers issueType)[node]?.getD []

variable {self : FaultDetection} {issueType : IssueType} {node : XorName} {now time : Nat}

theorem issuesOf_onTracker {changed : IssueType} {change : TimedTracker → TimedTracker} :
    (self.onTracker changed change).issuesOf issueType node =
      if issueType = changed then (change (self.trackers changed))[node]?.getD []
      else self.issuesOf issueType node := by
  simp only [issuesOf, onTracker, Function.update_apply]
  split_ifs <;> rfl

theorem issuesOf_trackIssue {nodeId : XorName} {tracked : IssueType} :
    (self.trackIssue now nodeId tracked).issuesOf issueType node =
      if issueType = tracked ∧ node = nodeId then self.issuesOf issueType node ++ [now]
      else self.issuesOf issueType node := by
  rw [trackIssue, issuesOf_onTracker]
  by_cases type : issueType = tracked
  · subst type
    by_cases name : node = nodeId
    · simp [name, issuesOf]
    · simp [name, Ne.symm name, ExtTreeMap.getElem?_insert, issuesOf]
  · simp [type]

theorem mem_of_popFront {nodeId : XorName} {popped : IssueType}
    (mem : time ∈ (self.popFront popped nodeId).issuesOf issueType node) : time ∈ self.issuesOf issueType node := by
  rw [popFront, issuesOf_onTracker] at mem
  split_ifs at mem with type
  · rw [ExtTreeMap.getElem?_modify] at mem
    split_ifs at mem with name
    · rw [issuesOf, type, ← Std.compare_eq_iff_eq.mp name]
      cases found : (self.trackers popped)[nodeId]? with
      | none => simp [found] at mem
      | some issues =>
        rw [found] at mem
        exact List.mem_of_mem_tail mem
    · rw [issuesOf, type]
      exact mem
  · exact mem

theorem issuesOf_cleanup : (self.cleanupTimeSensistiveChecks now).issuesOf issueType node =
    if issueType = .elderVoting then self.issuesOf issueType node
    else (self.issuesOf issueType node).filter fun time => now - time < recentIssueDuration := by
  have mapped : ∀ tracker : TimedTracker, (ExtTreeMap.map (fun _ issues => issues.filter fun time =>
      decide (now - time < recentIssueDuration)) tracker)[node]?.getD [] =
        (tracker[node]?.getD []).filter fun time => now - time < recentIssueDuration := by
    intro tracker
    rw [ExtTreeMap.getElem?_map]
    cases tracker[node]? <;> rfl
  cases issueType <;>
    simp only [cleanupTimeSensistiveChecks, List.foldl_cons, List.foldl_nil, onTracker, Function.update_apply, mapped,
      issuesOf, reduceCtorEq, if_true, if_false]

theorem mem_allCurrentNodes : node ∈ self.allCurrentNodes ↔ node ∈ self.nonElderNodes ∨ node ∈ self.elders := by
  have added : ∀ (nodes : List XorName) (set : ExtTreeSet XorName),
      node ∈ nodes.foldl .insert set ↔ node ∈ set ∨ node ∈ nodes := by
    intro nodes
    induction nodes with
    | nil => simp
    | cons first rest ih =>
      intro set
      rw [List.foldl_cons, ih, ExtTreeSet.mem_insert, Std.compare_eq_iff_eq, List.mem_cons, eq_comm]
      tauto
  rw [allCurrentNodes, added, added]
  simp

theorem issuesOf_update {nonElderNodes elders : ExtTreeSet XorName} :
    (self.updateAndOnlyRetainMembers nonElderNodes elders).issuesOf issueType node =
      if node ∈ self.allCurrentNodes ∧ node ∉ nonElderNodes ∧ node ∉ elders then []
      else self.issuesOf issueType node := by
  have erased : ∀ (nodes : List XorName) (tracker : TimedTracker),
      (nodes.foldl .erase tracker)[node]? = if node ∈ nodes then none else tracker[node]? := by
    intro nodes
    induction nodes with
    | nil => simp
    | cons first rest ih =>
      intro tracker
      rw [List.foldl_cons, ih, ExtTreeMap.getElem?_erase]
      by_cases same : node = first
      · simp [same]
      · simp [same, Ne.symm same]
  rw [issuesOf, updateAndOnlyRetainMembers, erased]
  simp only [List.mem_filter, ExtTreeSet.mem_toList, Bool.and_eq_true, Bool.not_eq_true', ← Bool.not_eq_true,
    ExtTreeSet.contains_iff_mem]
  split_ifs <;> rfl

end FaultDetection

/-! ## Runs -/

inductive FaultStep where
  | trackIssue (nodeId : XorName) (issueType : IssueType)
  | dkgAckFulfilled (nodeId : XorName)
  | elderVoteReceived (nodeId : XorName)
  | aeUpdateMsgReceived (nodeId : XorName)
  | addNewNode (node : XorName)
  | updateAndOnlyRetainMembers (nonElderNodes elders : ExtTreeSet XorName)
  | getFaultyNodes
  | pass (duration : Nat)

structure FaultState where
  detection : FaultDetection
  now : Nat

namespace FaultState

variable {faulty : (XorName → IssueType → Nat) → ExtTreeSet XorName → ExtTreeSet XorName → List XorName}

def new (nonElderNodes elders : ExtTreeSet XorName) : FaultState := ⟨.new nonElderNodes elders, 0⟩

def step (faulty : (XorName → IssueType → Nat) → ExtTreeSet XorName → ExtTreeSet XorName → List XorName)
    (self : FaultState) : FaultStep → FaultState
  | .trackIssue nodeId issueType => { self with detection := self.detection.trackIssue self.now nodeId issueType }
  | .dkgAckFulfilled nodeId => { self with detection := self.detection.dkgAckFulfilled nodeId }
  | .elderVoteReceived nodeId => { self with detection := self.detection.elderVoteReceived nodeId }
  | .aeUpdateMsgReceived nodeId => { self with detection := self.detection.aeUpdateMsgReceived nodeId }
  | .addNewNode node => { self with detection := self.detection.addNewNode node }
  | .updateAndOnlyRetainMembers nonElderNodes elders =>
    { self with detection := self.detection.updateAndOnlyRetainMembers nonElderNodes elders }
  | .getFaultyNodes => { self with detection := (self.detection.getFaultyNodes faulty self.now).2 }
  | .pass duration => { self with now := self.now + duration }

variable {self : FaultState} {issueType : IssueType} {node : XorName} {time : Nat} {request : FaultStep}
  {requests : List FaultStep} {members elders : ExtTreeSet XorName}

theorem mem_of_step (mem : time ∈ (self.step faulty request).detection.issuesOf issueType node) :
    time ∈ self.detection.issuesOf issueType node ∨ request = .trackIssue node issueType ∧ time = self.now := by
  cases request with
  | trackIssue nodeId tracked =>
    rw [step, FaultDetection.issuesOf_trackIssue] at mem
    split_ifs at mem with same
    · obtain ⟨rfl, rfl⟩ := same
      simpa using mem
    · exact .inl mem
  | updateAndOnlyRetainMembers members elders =>
    rw [step, FaultDetection.issuesOf_update] at mem
    split_ifs at mem
    · cases mem
    · exact .inl mem
  | getFaultyNodes =>
    rw [step, FaultDetection.getFaultyNodes, FaultDetection.issuesOf_cleanup] at mem
    split_ifs at mem
    · exact .inl mem
    · exact .inl (List.mem_of_mem_filter mem)
  | dkgAckFulfilled nodeId => exact .inl (FaultDetection.mem_of_popFront mem)
  | elderVoteReceived nodeId => exact .inl (FaultDetection.mem_of_popFront mem)
  | aeUpdateMsgReceived nodeId => exact .inl (FaultDetection.mem_of_popFront mem)
  | addNewNode => exact .inl mem
  | pass => exact .inl mem

theorem recorded_of_run (mem : time ∈ (run (step faulty) (new members elders) requests).detection.issuesOf issueType
    node) : ∃ earlier later, requests = earlier ++ .trackIssue node issueType :: later ∧
      time = (run (step faulty) (new members elders) earlier).now := by
  induction requests using List.reverseRecOn with
  | nil => simp [new, FaultDetection.new, FaultDetection.issuesOf] at mem
  | append_singleton seen request ih =>
    rw [run_append] at mem
    obtain old | ⟨rfl, same⟩ := mem_of_step mem
    · obtain ⟨earlier, later, rfl, same⟩ := ih old
      exact ⟨earlier, later ++ [request], by simp, same⟩
    · exact ⟨seen, [], rfl, same⟩

def Recent (self : FaultState) (issueType : IssueType) : Prop :=
  ∀ node, ∀ time ∈ self.detection.issuesOf issueType node, self.now - time < recentIssueDuration

/-- Right after `get_faulty_nodes`, all issues that are counted are recent but for those of votes of elders, and so
are these if all that were recorded are. -/
theorem recent_of_getFaultyNodes (faulty) (members elders : ExtTreeSet XorName) (requests : List FaultStep) :
    let start := new members elders
    let before := run (step faulty) start requests
    (∀ issueType ≠ .elderVoting, (before.step faulty .getFaultyNodes).Recent issueType) ∧
    ((∀ earlier node later, requests = earlier ++ .trackIssue node .elderVoting :: later →
      before.now - (run (step faulty) start earlier).now < recentIssueDuration) →
        ∀ issueType, (before.step faulty .getFaultyNodes).Recent issueType) := by
  intro start before
  have others : ∀ issueType ≠ .elderVoting, (before.step faulty .getFaultyNodes).Recent issueType := by
    intro issueType other node time mem
    rw [step, FaultDetection.getFaultyNodes, FaultDetection.issuesOf_cleanup, if_neg other] at mem
    exact of_decide_eq_true (List.mem_filter.mp mem).2
  refine ⟨others, fun recorded issueType => ?_⟩
  by_cases votes : issueType = .elderVoting
  · subst votes
    intro node time mem
    obtain old | ⟨nothing, -⟩ := mem_of_step mem
    · obtain ⟨earlier, later, same, rfl⟩ := recorded_of_run old
      exact recorded earlier node later same
    · cases nothing
  · exact others issueType votes

theorem length_sampleNode : (List.replicate 256 false).length = 256 := List.length_replicate

def sampleNode : XorName := ⟨List.replicate 256 false, length_sampleNode⟩

theorem recent_of_getFaultyNodes_sample : ((run (step fun _ _ _ => []) (new ∅ ∅)
    [.trackIssue sampleNode .communication, .pass recentIssueDuration]).step (fun _ _ _ => []) .getFaultyNodes).Recent
      .communication :=
  (recent_of_getFaultyNodes (fun _ _ _ => []) ∅ ∅ _).1 .communication (by decide)

/-- After ten minutes a vote of an elder that is missing still counts. -/
theorem not_recent_sampleVote : ¬ ((run (step fun _ _ _ => []) (new ∅ ∅)
    [.trackIssue sampleNode .elderVoting, .pass recentIssueDuration]).step (fun _ _ _ => []) .getFaultyNodes).Recent
      .elderVoting := by
  intro recent
  refine absurd (recent sampleNode 0 ?_) (by decide)
  simp [step, new, FaultDetection.getFaultyNodes, FaultDetection.issuesOf_cleanup, FaultDetection.issuesOf_trackIssue]

/-! ## Members -/

def TracksMembers (self : FaultState) (request : FaultStep) : Prop :=
  ∀ node issueType, request = .trackIssue node issueType → node ∈ self.detection.allCurrentNodes

def Contained (self : FaultState) : Prop :=
  ∀ issueType node, self.detection.issuesOf issueType node ≠ [] → node ∈ self.detection.allCurrentNodes

theorem retained_iff : (∀ issueType node, (self.detection.updateAndOnlyRetainMembers members elders).issuesOf issueType
      node ≠ [] → node ∈ members ∨ node ∈ elders) ↔
    ∀ issueType node, self.detection.issuesOf issueType node ≠ [] →
      node ∈ self.detection.allCurrentNodes ∨ node ∈ members ∨ node ∈ elders := by
  refine forall_congr' fun issueType => forall_congr' fun node => ?_
  rw [FaultDetection.issuesOf_update]
  split_ifs with removed
  · simp [removed.1]
  · refine imp_congr_right fun _ => ⟨.inr, fun inside => inside.elim (fun tracked => ?_) id⟩
    by_contra gone
    exact removed ⟨tracked, not_or.mp gone⟩

theorem Contained.step (contained : self.Contained) (tracks : self.TracksMembers request) :
    (self.step faulty request).Contained := by
  have known : ∀ issueType node, (self.step faulty request).detection.issuesOf issueType node ≠ [] →
      node ∈ self.detection.allCurrentNodes := by
    intro issueType node some
    obtain ⟨time, mem⟩ := List.exists_mem_of_ne_nil _ some
    obtain old | ⟨here, -⟩ := mem_of_step mem
    · exact contained issueType node (List.ne_nil_of_mem old)
    · exact tracks node issueType here
  cases request with
  | addNewNode added =>
    intro issueType node some
    have inside := FaultDetection.mem_allCurrentNodes.mp (known issueType node some)
    exact FaultDetection.mem_allCurrentNodes.mpr (inside.imp_left fun old => ExtTreeSet.mem_insert.mpr (.inr old))
  | updateAndOnlyRetainMembers members elders =>
    intro issueType node some
    exact FaultDetection.mem_allCurrentNodes.mpr (retained_iff.mpr
      (fun issueType node some => .inl (contained issueType node some)) issueType node some)
  | _ => exact known

/-- An update of the members after any run leaves issues for members only, exactly if no issue is recorded for a
name that is neither tracked before it nor a member after it, and so if issues are recorded for tracked nodes. -/
theorem retained_run (faulty) (start : ExtTreeSet XorName × ExtTreeSet XorName) (requests : List FaultStep)
    (members elders : ExtTreeSet XorName) :
    let before := run (step faulty) (new start.1 start.2) requests
    let after := before.step faulty (.updateAndOnlyRetainMembers members elders)
    ((∀ issueType node, after.detection.issuesOf issueType node ≠ [] → node ∈ members ∨ node ∈ elders) ↔
      ∀ issueType node, before.detection.issuesOf issueType node ≠ [] →
        node ∈ before.detection.allCurrentNodes ∨ node ∈ members ∨ node ∈ elders) ∧
    (Throughout (step faulty) TracksMembers (new start.1 start.2) requests →
      ∀ issueType node, after.detection.issuesOf issueType node ≠ [] → node ∈ members ∨ node ∈ elders) := by
  refine ⟨retained_iff, fun throughout => retained_iff.mpr fun issueType node some => .inl ?_⟩
  have start : (new start.1 start.2).Contained := by
    intro issueType node some
    simp [new, FaultDetection.new, FaultDetection.issuesOf] at some
  exact throughout.induction start (fun state request => Contained.step) issueType node some

theorem retained_run_sample : ((run (step fun _ _ _ => []) (new (ExtTreeSet.ofList [sampleNode]) ∅)
    [.trackIssue sampleNode .dkg]).step (fun _ _ _ => []) (.updateAndOnlyRetainMembers ∅ ∅)).detection.issuesOf .dkg
      sampleNode = [] := by
  by_contra some
  have tracked : Throughout (step fun _ _ _ => []) TracksMembers (new (ExtTreeSet.ofList [sampleNode]) ∅)
      [.trackIssue sampleNode .dkg] := by
    refine ⟨fun node issueType same => ?_, trivial⟩
    obtain ⟨rfl, rfl⟩ := FaultStep.trackIssue.inj same
    simp [FaultDetection.mem_allCurrentNodes, new, FaultDetection.new]
  have retained := (retained_run (fun _ _ _ => []) (ExtTreeSet.ofList [sampleNode], ∅)
    [.trackIssue sampleNode .dkg] ∅ ∅).2
  dsimp only at retained
  exact (retained tracked .dkg sampleNode some).elim ExtTreeSet.not_mem_empty ExtTreeSet.not_mem_empty

/-- An issue of a name that is not tracked survives an update without it. -/
theorem not_retained_sample : ∃ issueType node, ((run (step fun _ _ _ => []) (new ∅ ∅)
    [.trackIssue sampleNode .dkg]).step (fun _ _ _ => []) (.updateAndOnlyRetainMembers ∅ ∅)).detection.issuesOf
      issueType node ≠ [] := by
  refine ⟨.dkg, sampleNode, ?_⟩
  have untracked : sampleNode ∉ ((new ∅ ∅).detection.trackIssue 0 sampleNode .dkg).allCurrentNodes := by
    simp [FaultDetection.mem_allCurrentNodes, FaultDetection.trackIssue, FaultDetection.onTracker, new,
      FaultDetection.new]
  simp only [run_cons, run_nil, step, FaultDetection.issuesOf_update]
  rw [if_neg fun removed => untracked removed.1, FaultDetection.issuesOf_trackIssue]
  simp

end FaultState

end SafeNetwork
