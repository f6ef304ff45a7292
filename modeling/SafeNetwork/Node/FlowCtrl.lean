import SafeNetwork.Comms.Comm

/-!
# The flow of commands

`node/flow_ctrl`: all commands go through one channel. Its listener hands each of them to a task together with
the node context it has at that time. Commands that change the node are sent on to the blocking loop, which
processes one after the other, spawns a task that sends the resulting commands back to the channel, and then
sends the new context on the same channel.

The task and the loop race: a child of a blocking command may be handled with the context from before the
command. It is not when the task waits until the loop has sent the context.
-/

namespace SafeNetwork

open Runs

structure FlowScheme where
  Cmd : Type
  MyNode : Type
  NodeContext : Type
  Error : Type
  /-- `MyNode::process_cmd`, with the node after it. -/
  processCmd : Cmd → MyNode → Except Error (List Cmd) × MyNode
  /-- The end of a relocation in `process_blocking_cmds`: the relocation proof is dropped when we are a
  member of the new section. -/
  finishRelocation : MyNode → MyNode
  context : MyNode → NodeContext

/-- `FlowCtrlCmd`. A child of a blocking command has the number of that command, and a context the number of
blocking commands that were processed before it was taken. -/
inductive FlowCtrlCmd (F : FlowScheme) where
  /-- Process this command, in the blocking loop or off-thread where possible. -/
  | handle (cmd : F.Cmd) (parent : Option Nat)
  | updateContext (context : F.NodeContext) (version : Nat)

structure HandledCmd (F : FlowScheme) where
  cmd : F.Cmd
  parent : Option Nat
  context : F.NodeContext

structure FlowCtrl (F : FlowScheme) where
  node : F.MyNode
  /-- The contexts that were taken: the first one, and one after each blocking command. -/
  contexts : List F.NodeContext
  blocking : Mailbox F.Cmd standardChannelSize
  updating : Option (F.NodeContext × Nat)
  mailbox : Mailbox (FlowCtrlCmd F) standardChannelSize
  context : F.NodeContext
  version : Nat
  handled : List (HandledCmd F)

inductive FlowStep (F : FlowScheme) where
  /-- A command is sent to the blocking loop, when there is room for it. -/
  | block (cmd : F.Cmd)
  /-- A task other than those of the blocking loop starts to send commands. -/
  | spawn (cmds : List F.Cmd)
  | send (task : Nat)
  | process
  /-- The blocking loop sends the new context, when there is room for it. -/
  | update
  | listen

variable {F : FlowScheme}

namespace FlowCtrl

def start (node : F.MyNode) : FlowCtrl F where
  node := node
  contexts := [F.context node]
  blocking := .empty
  updating := none
  mailbox := .empty
  context := F.context node
  version := 0
  handled := []

/-- `CmdCtrl::process_blocking_cmd_job` and what the loop does next, up to sending the context. -/
def processBlockingCmdJob (self : FlowCtrl F) (cmd : F.Cmd) : FlowCtrl F :=
  let number := self.contexts.length
  let (result, node) := F.processCmd cmd self.node
  let mailbox := match result with
    | .ok cmds => self.mailbox.spawn (cmds.map (.handle · (some number)))
    | .error _ => self.mailbox
  let node := F.finishRelocation node
  { self with
    node, mailbox
    contexts := self.contexts ++ [F.context node]
    updating := some (F.context node, number) }

/-- One turn of `listen_for_flow_ctrl_cmds`. -/
def listen (self : FlowCtrl F) : FlowCtrlCmd F → FlowCtrl F
  | .updateContext context version => { self with context, version }
  | .handle cmd parent => { self with handled := self.handled ++ [⟨cmd, parent, self.context⟩] }

def step (self : FlowCtrl F) : FlowStep F → FlowCtrl F
  | .block cmd => { self with blocking := (self.blocking.push cmd).getD self.blocking }
  | .spawn cmds => { self with mailbox := self.mailbox.spawn (cmds.map (.handle · none)) }
  | .send task => { self with mailbox := self.mailbox.send task }
  | .process =>
    match self.updating, self.blocking.recv with
    | none, some (cmd, blocking) => { self with blocking }.processBlockingCmdJob cmd
    | _, _ => self
  | .update =>
    match self.updating with
    | none => self
    | some (context, version) =>
      match self.mailbox.push (.updateContext context version) with
      | none => self
      | some mailbox => { self with mailbox, updating := none }
  | .listen =>
    match self.mailbox.recv with
    | none => self
    | some (cmd, mailbox) => { self with mailbox }.listen cmd

/-- A task does not send a child of a blocking command before the loop has sent the context after it. -/
def InOrder (self : FlowCtrl F) : FlowStep F → Prop
  | .send task => ∀ cmd parent, .handle cmd (some parent) ∈ self.mailbox.next task →
      ∀ update ∈ self.updating, parent < update.2
  | _ => True

/-! ## What the listener meets -/

def versionAfter (version : Nat) : FlowCtrlCmd F → Nat
  | .handle _ _ => version
  | .updateContext _ version => version

/-- Children meet a context that is as new as their parent, and contexts have their number. -/
def Timely (contexts : List F.NodeContext) (version : Nat) : FlowCtrlCmd F → Prop
  | .handle _ parent => ∀ number ∈ parent, number ≤ version
  | .updateContext context number => contexts[number]? = some context

def AsNewAs (contexts : List F.NodeContext) (number : Nat) (context : F.NodeContext) : Prop :=
  ∃ version, number ≤ version ∧ contexts[version]? = some context

structure Current (state : FlowCtrl F) : Prop where
  context : state.contexts[state.version]? = some state.context
  meets : Throughout versionAfter (Timely state.contexts) state.version state.mailbox.queue
  sent : state.updating = none →
    run versionAfter state.version state.mailbox.queue + 1 = state.contexts.length
  /-- The context that is to be sent is the last one, and the one before it was sent. -/
  unsent : ∀ update ∈ state.updating, state.contexts[update.2]? = some update.1 ∧
    run versionAfter state.version state.mailbox.queue + 1 = update.2 ∧
    update.2 + 1 = state.contexts.length
  tasks : ∀ msg ∈ state.mailbox.tasks.flatten, ∃ cmd parent, msg = .handle cmd parent ∧
    ∀ number ∈ parent, number < state.contexts.length
  handled : ∀ entry ∈ state.handled, ∀ number ∈ entry.parent,
    AsNewAs state.contexts number entry.context

variable {self : FlowCtrl F} {contexts : List F.NodeContext} {latest : F.NodeContext} {number task : Nat}
  {context : F.NodeContext} {msg : FlowCtrlCmd F}

theorem getElem?_append_context (numbered : contexts[number]? = some context) : (contexts ++ [latest])[number]? = some context := by
  obtain ⟨inside, -⟩ := List.getElem?_eq_some_iff.mp numbered
  exact (List.getElem?_append_left inside).trans numbered

theorem Timely.append {version : Nat} (timely : Timely contexts version msg) :
    Timely (contexts ++ [latest]) version msg := by
  cases msg with
  | handle cmd parent => exact timely
  | updateContext context number => exact getElem?_append_context timely

theorem AsNewAs.append (new : AsNewAs contexts number context) : AsNewAs (contexts ++ [latest]) number context := by
  obtain ⟨version, newer, numbered⟩ := new
  exact ⟨version, newer, getElem?_append_context numbered⟩

theorem Current.start (node : F.MyNode) : (start node).Current where
  context := rfl
  meets := trivial
  sent _ := rfl
  unsent _ mem := by cases mem
  tasks _ mem := by cases mem
  handled _ mem := by cases mem

theorem mem_tasks_spawn {mailbox : Mailbox (FlowCtrlCmd F) standardChannelSize} {cmds : List F.Cmd}
    {parent : Option Nat} (mem : msg ∈ (mailbox.spawn (cmds.map (.handle · parent))).tasks.flatten) :
    msg ∈ mailbox.tasks.flatten ∨ ∃ cmd, msg = .handle cmd parent := by
  rw [Mailbox.spawn, List.flatten_append, List.mem_append] at mem
  obtain old | new := mem
  · exact Or.inl old
  · rw [List.flatten_singleton] at new
    obtain ⟨cmd, -, rfl⟩ := List.mem_map.mp new
    exact Or.inr ⟨cmd, rfl⟩

theorem Current.spawn (current : self.Current) (cmds : List F.Cmd) : (self.step (.spawn cmds)).Current := by
  refine ⟨current.context, current.meets, current.sent, current.unsent, ?_, current.handled⟩
  intro msg mem
  obtain old | ⟨cmd, rfl⟩ := mem_tasks_spawn mem
  · exact current.tasks msg old
  · exact ⟨cmd, none, rfl, by simp⟩

theorem Current.timely_next (current : self.Current) (ordered : self.InOrder (.send task)) (next : self.mailbox.next task = some msg) (mem : msg ∈ self.mailbox.tasks.flatten) :
    ∃ cmd parent, msg = .handle cmd parent ∧
      ∀ number ∈ parent, number ≤ run versionAfter self.version self.mailbox.queue := by
  obtain ⟨cmd, parent, rfl, processed⟩ := current.tasks msg mem
  refine ⟨cmd, parent, rfl, ?_⟩
  rintro number ⟨⟩
  have before := processed number rfl
  cases updating : self.updating with
  | none =>
    have sent := current.sent updating
    omega
  | some update =>
    obtain ⟨-, sent, -⟩ := current.unsent update updating
    have earlier := ordered cmd number next update updating
    omega

theorem Current.send (current : self.Current) (ordered : self.InOrder (.send task)) :
    (self.step (.send task)).Current := by
  rw [step]
  have sends := self.mailbox.send_sends task
  generalize self.mailbox.send task = mailbox at sends ⊢
  cases sends with
  | waits => exact current
  | @sent front back value rest _ next position before tasks queue =>
    have mem : value ∈ self.mailbox.tasks.flatten := by
      rw [before]
      simp
    obtain ⟨cmd, parent, rfl, newer⟩ := current.timely_next ordered next mem
    have same : run versionAfter self.version mailbox.queue =
        run versionAfter self.version self.mailbox.queue := by
      rw [queue, run_append]
      rfl
    refine ⟨current.context, ?_, ?_, ?_, ?_, current.handled⟩
    · dsimp only
      rw [queue, throughout_append]
      exact ⟨current.meets, newer, trivial⟩
    · dsimp only
      rw [same]
      exact current.sent
    · dsimp only
      rw [same]
      exact current.unsent
    · intro msg mem
      refine current.tasks msg ?_
      rw [tasks] at mem
      rw [before]
      simp only [List.flatten_append, List.flatten_cons, List.mem_append, List.mem_cons] at mem ⊢
      tauto

/-- What processing a blocking command does to the channel of all commands and to the contexts. -/
structure Processed (before after : FlowCtrl F) (latest : F.NodeContext) : Prop where
  contexts : after.contexts = before.contexts ++ [latest]
  updating : after.updating = some (latest, before.contexts.length)
  queue : after.mailbox.queue = before.mailbox.queue
  tasks : ∀ msg ∈ after.mailbox.tasks.flatten, msg ∈ before.mailbox.tasks.flatten ∨
    ∃ child, msg = .handle child (some before.contexts.length)
  context : after.context = before.context
  version : after.version = before.version
  handled : after.handled = before.handled

theorem processBlockingCmdJob_processed (self : FlowCtrl F) (cmd : F.Cmd) :
    ∃ latest, self.Processed (self.processBlockingCmdJob cmd) latest := by
  rw [processBlockingCmdJob]
  generalize F.processCmd cmd self.node = processed
  obtain ⟨result, node⟩ := processed
  cases result with
  | ok cmds => exact ⟨_, rfl, rfl, rfl, fun msg mem => mem_tasks_spawn mem, rfl, rfl, rfl⟩
  | error error => exact ⟨_, rfl, rfl, rfl, fun msg mem => Or.inl mem, rfl, rfl, rfl⟩

section

variable (current : self.Current)
include current

theorem Current.processed {after : FlowCtrl F} (idle : self.updating = none)
    (processed : self.Processed after latest) : after.Current := by
  have last := current.sent idle
  have length : after.contexts.length = self.contexts.length + 1 := by
    rw [processed.contexts, List.length_append, List.length_singleton]
  have context := current.context
  have meets := current.meets
  rw [← processed.version, ← processed.queue] at meets last
  rw [← processed.version, ← processed.context] at context
  refine ⟨?_, ?_, ?_, ?_, ?_, ?_⟩
  · rw [processed.contexts]
    exact getElem?_append_context context
  · rw [processed.contexts]
    exact meets.weaken fun _ _ timely => timely.append
  · intro none
    rw [processed.updating] at none
    cases none
  · rintro _ mem
    rw [processed.updating] at mem
    obtain rfl := Option.some.inj mem
    refine ⟨?_, last, length.symm⟩
    rw [processed.contexts]
    exact List.getElem?_concat_length
  · intro msg mem
    rw [length]
    obtain old | ⟨child, rfl⟩ := processed.tasks msg mem
    · obtain ⟨cmd, parent, rfl, inside⟩ := current.tasks msg old
      exact ⟨cmd, parent, rfl, fun number mem => Nat.lt_succ_of_lt (inside number mem)⟩
    · refine ⟨child, _, rfl, ?_⟩
      rintro _ ⟨⟩
      exact Nat.lt_succ_self _
  · intro entry mem number parent
    rw [processed.handled] at mem
    rw [processed.contexts]
    exact (current.handled entry mem number parent).append

theorem Current.process : (self.step .process).Current := by
  rw [step]
  split
  · rename_i cmd blocking idle _
    obtain ⟨latest, processed⟩ := processBlockingCmdJob_processed { self with blocking } cmd
    have before : FlowCtrl.Current { self with blocking } :=
      ⟨current.context, current.meets, current.sent, current.unsent, current.tasks, current.handled⟩
    exact before.processed idle processed
  · exact current

theorem Current.update : (self.step .update).Current := by
  rw [step]
  split
  · exact current
  · rename_i context version updating
    split
    · exact current
    · rename_i mailbox pushed
      obtain ⟨tasks, queue⟩ := Mailbox.push_eq_some pushed
      obtain ⟨numbered, -, last⟩ := current.unsent _ updating
      refine ⟨current.context, ?_, ?_, ?_, ?_, current.handled⟩
      · dsimp only
        rw [queue, throughout_append]
        exact ⟨current.meets, numbered, trivial⟩
      · intro _
        dsimp only
        rw [queue, run_append]
        exact last
      · rintro _ ⟨⟩
      · dsimp only
        rw [tasks]
        exact current.tasks

theorem Current.listen : (self.step .listen).Current := by
  rw [step]
  split
  · exact current
  · rename_i msg mailbox received
    obtain ⟨queue, tasks⟩ := Mailbox.recv_eq_some received
    obtain ⟨context, meets, sent, unsent, commands, handled⟩ := current
    rw [queue] at meets sent unsent
    rw [← tasks] at commands
    obtain ⟨timely, later⟩ := meets
    cases msg with
    | updateContext latest version => exact ⟨timely, later, sent, unsent, commands, handled⟩
    | handle cmd parent =>
      refine ⟨context, later, sent, unsent, commands, ?_⟩
      intro entry mem number child
      obtain old | new := List.mem_append.mp mem
      · exact handled entry old number child
      · obtain rfl := List.mem_singleton.mp new
        exact ⟨self.version, timely number child, context⟩

theorem Current.step {next : FlowStep F} (ordered : self.InOrder next) :
    (self.step next).Current := by
  cases next with
  | block cmd =>
    exact ⟨current.context, current.meets, current.sent, current.unsent, current.tasks, current.handled⟩
  | spawn cmds => exact current.spawn cmds
  | send task => exact current.send ordered
  | process => exact current.process
  | update => exact current.update
  | listen => exact current.listen

end

/-- No child runs on a stale context: in every run in which no task sends a child of a blocking command before
the loop has sent the context after it, each child of a blocking command is handled with a context that was
taken after that command was processed, or after a later one. -/
theorem handled_as_new_as_parent {node : F.MyNode} {steps : List (FlowStep F)}
    (ordered : Throughout step InOrder (start node) steps) :
    ∀ entry ∈ (run step (start node) steps).handled, ∀ number ∈ entry.parent,
      AsNewAs (run step (start node) steps).contexts number entry.context := by
  have current : (run step (start node) steps).Current :=
    ordered.induction (.start node) fun _ _ current inOrder => current.step inOrder
  exact current.handled

/-! ## Sample runs -/

/-- A node that counts its commands; each command but `0` has one child. -/
abbrev sampleFlow : FlowScheme where
  Cmd := Nat
  MyNode := Nat
  NodeContext := Nat
  Error := Unit
  processCmd cmd node := (.ok (if cmd = 0 then [] else [cmd - 1]), node + 1)
  finishRelocation node := node
  context node := node

def sampleFlowOrder : List (FlowStep sampleFlow) :=
  [.block (1 : Nat), .process, .update, .send 0, .listen, .listen]

theorem sampleFlowOrder_inOrder : Throughout step InOrder (start (0 : Nat)) sampleFlowOrder := by
  refine ⟨trivial, trivial, trivial, ?_, trivial, trivial, trivial⟩
  rintro _ _ _ _ ⟨⟩

theorem handled_as_new_as_parent_sampleFlow : Throughout step InOrder (start (0 : Nat)) sampleFlowOrder ∧
      (run step (start (0 : Nat)) sampleFlowOrder).handled = [⟨(0 : Nat), some 1, (1 : Nat)⟩] ∧
      AsNewAs (F := sampleFlow) (run step (start (0 : Nat)) sampleFlowOrder).contexts 1 (1 : Nat) := by
  have handled : (run step (start (0 : Nat)) sampleFlowOrder).handled =
    [⟨(0 : Nat), some 1, (1 : Nat)⟩] := rfl
  refine ⟨sampleFlowOrder_inOrder, handled, ?_⟩
  exact handled_as_new_as_parent sampleFlowOrder_inOrder ⟨(0 : Nat), some 1, (1 : Nat)⟩
    (by rw [handled]; exact List.mem_singleton.mpr rfl) 1 rfl

def sampleFlowRace : List (FlowStep sampleFlow) := [.block (1 : Nat), .process, .send 0, .update, .listen]

/-- The child is handled with the context from before its parent. -/
theorem handled_before_parent :
    (run step (start (0 : Nat)) sampleFlowRace).handled = [⟨(0 : Nat), some 1, (0 : Nat)⟩] ∧
      (run step (start (0 : Nat)) sampleFlowRace).contexts = [(0 : Nat), (1 : Nat)] ∧
      ¬ AsNewAs (F := sampleFlow) (run step (start (0 : Nat)) sampleFlowRace).contexts 1 (0 : Nat) := by
  have contexts : (run step (start (0 : Nat)) sampleFlowRace).contexts = [(0 : Nat), (1 : Nat)] := rfl
  refine ⟨rfl, contexts, ?_⟩
  rw [contexts]
  rintro ⟨version, newer, numbered⟩
  obtain ⟨inside, same⟩ := List.getElem?_eq_some_iff.mp numbered
  obtain rfl : version = 1 := by
    rw [List.length_cons, List.length_singleton] at inside
    omega
  cases same

end FlowCtrl

end SafeNetwork
