import SafeNetwork.Library.Channel
import SafeNetwork.Messaging

/-!
# The commands of the comms

`sn_comms/src/lib.rs`: every call on a `Comm` spawns a task that sends one command on a bounded channel, and a
loop processes the commands in the order they arrive. The links are those of the last target set the loop has
processed. A command that sends to a node without a link is answered with an error.

The scheduler may let a task send before the task of an earlier call. The commands take effect in call order
when no command passes a change of the targets on its way into the channel, and no change passes a command.
-/

namespace SafeNetwork

open Std Runs

structure CommScheme where
  NodeId : Type
  NodeLink : Type
  MsgId : Type
  DstStream : Type
  [ordNodeId : Ord NodeId]
  [transOrdNodeId : TransOrd NodeId]
  [lawfulEqOrdNodeId : LawfulEqOrd NodeId]
  /-- `NodeLink::new` with our endpoint. -/
  newLink : NodeId → NodeLink

attribute [instance] CommScheme.ordNodeId CommScheme.transOrdNodeId CommScheme.lawfulEqOrdNodeId

def standardChannelSize : Nat := 100000

inductive CommCmd (C : CommScheme) where
  | send (msgId : C.MsgId) (nodeId : C.NodeId) (bytes : UsrMsgBytes)
  | setTargets (targets : ExtTreeSet C.NodeId)
  | sendAndReturnResponse (nodeId : C.NodeId) (msgId : C.MsgId) (bytes : UsrMsgBytes)
  | sendAndRespondOnStream (msgId : C.MsgId) (nodeBytes : ExtTreeMap C.NodeId UsrMsgBytes)
    (expectedTargets : Nat) (dstStream : C.DstStream)

/-- The errors of the comms when there is no link. -/
inductive CommError (C : CommScheme) where
  | connectingToUnknownNode (msgId : C.MsgId)

inductive CommOutput (C : CommScheme) where
  | error (nodeId : C.NodeId) (error : CommError C)
  | send (msgId : C.MsgId) (link : C.NodeLink) (bytes : UsrMsgBytes)
  /-- `send_and_return_response` on a link. -/
  | sendAndReturnResponse (msgId : C.MsgId) (link : C.NodeLink) (bytes : UsrMsgBytes)
  /-- `send_and_respond_on_stream` on the links there are. -/
  | sendAndRespondOnStream (msgId : C.MsgId)
    (nodeBytes : List (C.NodeId × Option C.NodeLink × UsrMsgBytes)) (expectedTargets : Nat)
    (dstStream : C.DstStream)

abbrev CommScheme.Links (C : CommScheme) : Type := ExtTreeMap C.NodeId C.NodeLink

variable {C : CommScheme}

/-! ## Processing -/

/-- `get_link` — the link of a node, or the error event for it. -/
def getLink (msgId : C.MsgId) (nodeId : C.NodeId) (links : C.Links) :
    Option C.NodeLink × List (CommOutput C) :=
  match links[nodeId]? with
  | some link => (some link, [])
  | none => (none, [.error nodeId (.connectingToUnknownNode msgId)])

def addLink (links : C.Links) (nodeId : C.NodeId) : C.Links :=
  if links[nodeId]?.isNone then links.insert nodeId (C.newLink nodeId) else links

/-- `CommCmd::SetTargets` — drops links that are not among the targets and adds those that are missing. -/
def setTargets (links : C.Links) (targets : ExtTreeSet C.NodeId) : C.Links :=
  targets.toList.foldl addLink (links.filter fun nodeId _ => targets.contains nodeId)

/-- `process_cmds` for one command. -/
def processCmd (links : C.Links) : CommCmd C → C.Links × List (CommOutput C)
  | .setTargets targets => (setTargets links targets, [])
  | .send msgId nodeId bytes =>
    match getLink msgId nodeId links with
    | (some link, events) => (links, events ++ [.send msgId link bytes])
    | (none, events) => (links, events)
  | .sendAndReturnResponse nodeId msgId bytes =>
    match getLink msgId nodeId links with
    | (some link, events) => (links, events ++ [.sendAndReturnResponse msgId link bytes])
    | (none, events) => (links, events)
  | .sendAndRespondOnStream msgId nodeBytes expectedTargets dstStream =>
    let found := nodeBytes.toList.map fun entry => (entry, getLink msgId entry.1 links)
    (links, found.flatMap (·.2.2) ++ [.sendAndRespondOnStream msgId
      (found.map fun entry => (entry.1.1, entry.2.1, entry.1.2)) expectedTargets dstStream])

/-! ## Runs -/

/-- A `Comm` with the tasks of its calls and the loop that processes their commands. Commands are numbered
by the call that issued them. -/
structure CommState (C : CommScheme) where
  calls : List (CommCmd C)
  mailbox : Mailbox (Nat × CommCmd C) standardChannelSize
  links : C.Links
  outputs : List (Nat × CommOutput C)

inductive CommStep (C : CommScheme) where
  /-- A call of `set_comm_targets`, `send_out_bytes`, `send_and_return_response` or
  `send_and_respond_on_stream`: `send_cmd` spawns a task. -/
  | call (cmd : CommCmd C)
  | send (task : Nat)
  | process

def CommCmd.isTargetChange : CommCmd C → Bool
  | .setTargets _ => true
  | _ => false

namespace CommState

def new : CommState C := ⟨[], .empty, ∅, []⟩

def step (self : CommState C) : CommStep C → CommState C
  | .call cmd =>
    { self with
      calls := self.calls ++ [cmd]
      mailbox := self.mailbox.spawn [(self.calls.length, cmd)] }
  | .send task => { self with mailbox := self.mailbox.send task }
  | .process =>
    match self.mailbox.recv with
    | none => self
    | some ((call, cmd), mailbox) =>
      let (links, outputs) := processCmd self.links cmd
      { self with mailbox, links, outputs := self.outputs ++ outputs.map (call, ·) }

def targetsAfter (targets : ExtTreeSet C.NodeId) : CommCmd C → ExtTreeSet C.NodeId
  | .setTargets targets => targets
  | _ => targets

def lastTargets (calls : List (CommCmd C)) : ExtTreeSet C.NodeId := run targetsAfter ∅ calls

/-- A task that sends does not pass a change of the targets, and passes nothing with one: earlier tasks with
something to send have no change to send, and if there are any it sends no change itself. -/
def InOrder (self : CommState C) : CommStep C → Prop
  | .send task => ∀ cmd ∈ self.mailbox.next task, ∀ earlier ∈ (self.mailbox.tasks.take task).flatten,
      cmd.2.isTargetChange = false ∧ earlier.2.isTargetChange = false
  | _ => True

end CommState

/-! ## What commands do -/

section

variable {links : C.Links} {targets : ExtTreeSet C.NodeId} {nodeId : C.NodeId}

theorem mem_addLink {other : C.NodeId} : nodeId ∈ addLink links other ↔ other = nodeId ∨ nodeId ∈ links := by
  rw [addLink]
  split
  · rw [ExtTreeMap.mem_insert, Std.compare_eq_iff_eq]
  · rename_i present
    rw [Option.isNone_iff_eq_none, ← Ne, Option.ne_none_iff_exists'] at present
    constructor
    · exact Or.inr
    · rintro (rfl | mem)
      · obtain ⟨link, found⟩ := present
        exact ExtTreeMap.mem_iff_isSome_getElem?.mpr (by rw [found]; rfl)
      · exact mem

theorem mem_foldl_addLink {nodes : List C.NodeId} :
    nodeId ∈ nodes.foldl addLink links ↔ nodeId ∈ nodes ∨ nodeId ∈ links := by
  induction nodes generalizing links with
  | nil => simp
  | cons node rest ih =>
    rw [List.foldl_cons, ih, mem_addLink, List.mem_cons]
    constructor
    · rintro (mem | rfl | mem)
      · exact Or.inl (Or.inr mem)
      · exact Or.inl (Or.inl rfl)
      · exact Or.inr mem
    · rintro ((rfl | mem) | mem)
      · exact Or.inr (Or.inl rfl)
      · exact Or.inl mem
      · exact Or.inr (Or.inr mem)

theorem mem_setTargets : nodeId ∈ setTargets links targets ↔ nodeId ∈ targets := by
  rw [setTargets, mem_foldl_addLink, ExtTreeSet.mem_toList]
  constructor
  · rintro (mem | mem)
    · exact mem
    · obtain ⟨_, kept⟩ := ExtTreeMap.mem_filter.mp mem
      rw [ExtTreeMap.getKey_eq] at kept
      exact kept
  · exact Or.inl

variable {cmd : CommCmd C} {msgId : C.MsgId}

theorem refused_of_getLink {target : C.NodeId} {error : CommError C} {link : Option C.NodeLink}
    {events : List (CommOutput C)} (asked : getLink msgId target links = (link, events))
    (refused : .error nodeId error ∈ events) : nodeId ∉ links := by
  rw [getLink] at asked
  split at asked
  · obtain ⟨-, rfl⟩ := Prod.mk.inj asked
    cases refused
  · rename_i absent
    obtain ⟨-, rfl⟩ := Prod.mk.inj asked
    obtain ⟨rfl, -⟩ := CommOutput.error.inj (List.mem_singleton.mp refused)
    intro mem
    rw [ExtTreeMap.mem_iff_isSome_getElem?, absent] at mem
    cases mem

theorem mem_processCmd (same : ∀ nodeId, nodeId ∈ links ↔ nodeId ∈ targets) :
    nodeId ∈ (processCmd links cmd).1 ↔ nodeId ∈ CommState.targetsAfter targets cmd := by
  cases cmd with
  | setTargets targets => exact mem_setTargets
  | send msgId target bytes =>
    rw [processCmd]
    split <;> exact same nodeId
  | sendAndReturnResponse target msgId bytes =>
    rw [processCmd]
    split <;> exact same nodeId
  | sendAndRespondOnStream msgId nodeBytes expectedTargets dstStream => exact same nodeId

theorem refused_of_processCmd {error : CommError C}
    (refused : .error nodeId error ∈ (processCmd links cmd).2) : nodeId ∉ links := by
  cases cmd with
  | setTargets targets => cases refused
  | send msgId target bytes =>
    rw [processCmd] at refused
    split at refused
    · rename_i asked
      obtain event | sent := List.mem_append.mp refused
      · exact refused_of_getLink asked event
      · cases List.mem_singleton.mp sent
    · rename_i asked
      exact refused_of_getLink asked refused
  | sendAndReturnResponse target msgId bytes =>
    rw [processCmd] at refused
    split at refused
    · rename_i asked
      obtain event | sent := List.mem_append.mp refused
      · exact refused_of_getLink asked event
      · cases List.mem_singleton.mp sent
    · rename_i asked
      exact refused_of_getLink asked refused
  | sendAndRespondOnStream msgId nodeBytes expectedTargets dstStream =>
    obtain event | sent := List.mem_append.mp refused
    · obtain ⟨_, found, event⟩ := List.mem_flatMap.mp event
      obtain ⟨entry, -, rfl⟩ := List.mem_map.mp found
      exact refused_of_getLink rfl event
    · cases List.mem_singleton.mp sent

end

/-! ## Call order -/

namespace CommState

variable {self : CommState C} {targets : ExtTreeSet C.NodeId} {cmd : CommCmd C} {calls : List (CommCmd C)}
  {entry : Nat × CommCmd C}

abbrev receive (targets : ExtTreeSet C.NodeId) (entry : Nat × CommCmd C) : ExtTreeSet C.NodeId :=
  targetsAfter targets entry.2

/-- A command is that of its call, and meets the targets that were set last before the call. -/
def Timely (calls : List (CommCmd C)) (targets : ExtTreeSet C.NodeId) (entry : Nat × CommCmd C) : Prop :=
  calls[entry.1]? = some entry.2 ∧ targets = lastTargets (calls.take entry.1)

/-- The commands take effect in call order: those on their way will meet the targets that were set last
before their calls, and those that were refused were not for one of these targets. -/
structure Orderly (state : CommState C) (targets : ExtTreeSet C.NodeId) : Prop where
  links : ∀ nodeId, nodeId ∈ state.links ↔ nodeId ∈ targets
  meets : Throughout receive (Timely state.calls) targets state.mailbox.inFlight
  last : run receive targets state.mailbox.inFlight = lastTargets state.calls
  refused : ∀ call nodeId error, (call, .error nodeId error) ∈ state.outputs →
    call < state.calls.length ∧ nodeId ∉ lastTargets (state.calls.take call)

theorem take_append_call {call : Nat} (issued : call < calls.length) : (calls ++ [cmd]).take call = calls.take call :=
  List.take_append_of_le_length (Nat.le_of_lt issued)

theorem Timely.append (timely : Timely calls targets entry) : Timely (calls ++ [cmd]) targets entry := by
  obtain ⟨issued, same⟩ := timely
  obtain ⟨inside, -⟩ := List.getElem?_eq_some_iff.mp issued
  exact ⟨(List.getElem?_append_left inside).trans issued, same.trans (by rw [take_append_call inside])⟩

theorem lastTargets_append : lastTargets (calls ++ [cmd]) = targetsAfter (lastTargets calls) cmd := run_append

theorem Orderly.new : (new : CommState C).Orderly ∅ where
  links _ := Iff.rfl
  meets := trivial
  last := rfl
  refused _ _ _ mem := by cases mem

theorem Orderly.call (orderly : self.Orderly targets) : (self.step (.call cmd)).Orderly targets := by
  have calls : (self.step (.call cmd)).calls = self.calls ++ [cmd] := rfl
  have flight : (self.step (.call cmd)).mailbox.inFlight =
      self.mailbox.inFlight ++ [(self.calls.length, cmd)] := by
    simp [step, Mailbox.spawn, Mailbox.inFlight]
  refine ⟨orderly.links, ?_, ?_, ?_⟩
  · rw [flight, calls, throughout_append, orderly.last]
    refine ⟨orderly.meets.weaken fun _ _ timely => timely.append, ⟨?_, ?_⟩, trivial⟩
    · exact List.getElem?_concat_length
    · rw [List.take_left]
  · rw [flight, calls, run_append, orderly.last, lastTargets_append]
    rfl
  · intro call nodeId error mem
    obtain ⟨issued, absent⟩ := orderly.refused call nodeId error mem
    rw [calls, take_append_call issued, List.length_append]
    exact ⟨Nat.lt_add_right _ issued, absent⟩

theorem neutral_of_not_change (kept : entry.2.isTargetChange = false) : Mailbox.Neutral receive entry := by
  intro targets
  obtain ⟨call, cmd⟩ := entry
  cases cmd with
  | setTargets targets => cases kept
  | _ => rfl

theorem Orderly.send {task : Nat} (orderly : self.Orderly targets) (ordered : self.InOrder (.send task)) :
    (self.step (.send task)).Orderly targets := by
  have passes : self.mailbox.InOrder receive task := by
    intro cmd sends
    by_cases none : (self.mailbox.tasks.take task).flatten = []
    · exact Or.inl none
    · obtain ⟨first, mem⟩ := List.exists_mem_of_ne_nil _ none
      exact Or.inr ⟨neutral_of_not_change (ordered cmd sends first mem).1, fun earlier mem =>
        neutral_of_not_change (ordered cmd sends earlier mem).2⟩
  have runs : run receive targets (self.mailbox.send task).inFlight =
    run receive targets self.mailbox.inFlight := passes.run_send
  exact ⟨orderly.links, passes.throughout_send orderly.meets, runs.trans orderly.last, orderly.refused⟩

theorem Orderly.process (orderly : self.Orderly targets) : ∃ targets, (self.step .process).Orderly targets := by
  cases received : self.mailbox.recv with
  | none =>
    rw [step, received]
    exact ⟨targets, orderly⟩
  | some entry =>
    obtain ⟨⟨call, cmd⟩, mailbox⟩ := entry
    rw [step, received]
    obtain ⟨queue, tasks⟩ := Mailbox.recv_eq_some received
    have flight : self.mailbox.inFlight = (call, cmd) :: mailbox.inFlight := by
      rw [Mailbox.inFlight, Mailbox.inFlight, queue, tasks]
      rfl
    have meets := orderly.meets
    have last := orderly.last
    rw [flight] at meets last
    obtain ⟨⟨issued, same⟩, later⟩ := meets
    refine ⟨targetsAfter targets cmd, fun nodeId => mem_processCmd orderly.links, later, last, ?_⟩
    intro other nodeId error mem
    obtain old | new := List.mem_append.mp mem
    · exact orderly.refused other nodeId error old
    · obtain ⟨output, refused, same'⟩ := List.mem_map.mp new
      obtain ⟨rfl, rfl⟩ := Prod.mk.inj same'
      obtain ⟨inside, -⟩ := List.getElem?_eq_some_iff.mp issued
      refine ⟨inside, ?_⟩
      rw [← same, ← orderly.links]
      exact refused_of_processCmd refused

theorem Orderly.step {next : CommStep C} (orderly : ∃ targets, self.Orderly targets)
    (ordered : self.InOrder next) : ∃ targets, (self.step next).Orderly targets := by
  obtain ⟨targets, orderly⟩ := orderly
  cases next with
  | call cmd => exact ⟨targets, orderly.call⟩
  | send task => exact ⟨targets, orderly.send ordered⟩
  | process => exact orderly.process

/-- The commands of a `Comm` take effect in call order: in every run in which no command passes a change of
the targets on its way into the channel and no change passes a command, once all commands are processed the
links are those of the last target set, and a command is not refused for a node that is in the target set
that was last set before its call. -/
theorem run_in_order {steps : List (CommStep C)} (ordered : Throughout step InOrder new steps) :
    ((run step new steps).mailbox.inFlight = [] → ∀ nodeId, nodeId ∈ (run step new steps).links ↔
      nodeId ∈ lastTargets (run step new steps).calls) ∧
    ∀ call nodeId msgId, nodeId ∈ lastTargets ((run step new steps).calls.take call) →
      (call, .error nodeId (.connectingToUnknownNode msgId)) ∉ (run step new steps).outputs := by
  obtain ⟨targets, orderly⟩ : ∃ targets, (run step new steps).Orderly targets :=
    ordered.induction ⟨∅, .new⟩ fun _ _ orderly inOrder => Orderly.step orderly inOrder
  constructor
  · intro done nodeId
    have last := orderly.last
    rw [done] at last
    rw [orderly.links, ← last]
    rfl
  · intro call nodeId msgId target refused
    exact (orderly.refused call nodeId _ refused).2 target

/-! ## Sample runs -/

abbrev sampleComm : CommScheme where
  NodeId := Nat
  NodeLink := Nat
  MsgId := Nat
  DstStream := Unit
  newLink nodeId := nodeId

def sampleTarget (nodeId : Nat) : CommStep sampleComm :=
  .call (.setTargets ((∅ : ExtTreeSet Nat).insert nodeId))

def sampleSend (nodeId : Nat) : CommStep sampleComm := .call (.send (0 : Nat) nodeId ([], [], []))

def sampleOrder : List (CommStep sampleComm) :=
  [sampleTarget 1, sampleSend 1, .send 0, .send 1, .process, .process]

theorem sampleOrder_inOrder : Throughout step InOrder new sampleOrder := by
  refine ⟨trivial, trivial, ?_, ?_, trivial, trivial, trivial⟩
  · rintro _ _ _ ⟨⟩
  · rintro _ _ _ ⟨⟩

theorem run_in_order_sampleOrder : Throughout step InOrder new sampleOrder ∧
      (∀ nodeId, nodeId ∈ (run step new sampleOrder).links ↔
        nodeId ∈ (∅ : ExtTreeSet Nat).insert 1) ∧
      ((1 : Nat), .error (1 : Nat) (.connectingToUnknownNode (0 : Nat))) ∉ (run step new sampleOrder).outputs := by
  obtain ⟨links, sent⟩ := run_in_order sampleOrder_inOrder
  have target : 1 ∈ lastTargets ((run step new sampleOrder).calls.take 1) := by decide +kernel
  exact ⟨sampleOrder_inOrder, links rfl, sent 1 1 0 target⟩

def sampleLateTarget : List (CommStep sampleComm) :=
  [sampleTarget 1, sampleTarget 2, .send 1, .send 0, .process, .process]

def sampleLateSend : List (CommStep sampleComm) :=
  [sampleTarget 1, sampleSend 1, .send 1, .send 0, .process, .process]

/-- When the tasks send in the other order, the links are those of the first target set in the end, and the
message to the target is refused. -/
theorem run_out_of_order : (run step new sampleLateTarget).mailbox.inFlight.isEmpty = true ∧
      lastTargets (run step new sampleLateTarget).calls = (∅ : ExtTreeSet Nat).insert 2 ∧
      (run step new sampleLateTarget).links.keys = [1] ∧
      (lastTargets ((run step new sampleLateSend).calls.take 1)).contains (1 : Nat) = true ∧
      (run step new sampleLateSend).outputs =
        [((1 : Nat), .error (1 : Nat) (.connectingToUnknownNode (0 : Nat)))] := by
  refine ⟨rfl, rfl, ?_, ?_, rfl⟩
  · decide +kernel
  · decide +kernel

end CommState

end SafeNetwork
