import SafeNetwork.Library.Runs

/-!
# Bounded channels with spawned senders

Values are sent on a bounded channel by spawned tasks, each of which sends its own values one after the
other; a task waits while the channel is full. The scheduler decides which task sends next. The receiver
takes the values in the order they were sent and changes its state with each.

What the receiver will meet is a run over the values in the channel and, behind them, those of the tasks in
the order they were spawned. A value that passes others on its way into the channel changes nothing for
them, and they nothing for it, when none of them changes the state of the receiver.
-/

open Runs

structure Mailbox (α : Type) (capacity : Nat) where
  /-- What each task has still to send, in the order the tasks were spawned. -/
  tasks : List (List α)
  queue : List α
  bounded : queue.length ≤ capacity

namespace Mailbox

variable {α σ : Type} {capacity : Nat}

def empty : Mailbox α capacity := ⟨[], [], Nat.zero_le _⟩

def spawn (self : Mailbox α capacity) (values : List α) : Mailbox α capacity :=
  { self with tasks := self.tasks ++ [values] }

def push (self : Mailbox α capacity) (value : α) : Option (Mailbox α capacity) :=
  if room : self.queue.length < capacity then
    some ⟨self.tasks, self.queue ++ [value], List.length_append.trans_le room⟩
  else none

def send (self : Mailbox α capacity) (task : Nat) : Mailbox α capacity :=
  match self.tasks[task]? with
  | some (value :: rest) =>
    ((self.push value).map fun sent => { sent with tasks := self.tasks.set task rest }).getD self
  | _ => self

theorem bounded_rest {self : Mailbox α capacity} {value : α} {rest : List α}
    (queued : self.queue = value :: rest) : rest.length ≤ capacity := by
  have bounded := self.bounded
  rw [queued, List.length_cons] at bounded
  omega

def recv (self : Mailbox α capacity) : Option (α × Mailbox α capacity) :=
  match queued : self.queue with
  | [] => none
  | value :: rest =>
    some (value, ⟨self.tasks, rest, bounded_rest queued⟩)

def next (self : Mailbox α capacity) (task : Nat) : Option α := self.tasks[task]?.bind List.head?

/-- All values on their way, in the order they arrive when no task passes another. -/
def inFlight (self : Mailbox α capacity) : List α := self.queue ++ self.tasks.flatten

variable {self after : Mailbox α capacity} {value : α}

theorem push_eq_some (pushed : self.push value = some after) :
    after.tasks = self.tasks ∧ after.queue = self.queue ++ [value] := by
  rw [push] at pushed
  split at pushed
  · obtain rfl := Option.some.inj pushed
    exact ⟨rfl, rfl⟩
  · cases pushed

inductive Sends (self : Mailbox α capacity) (task : Nat) : Mailbox α capacity → Prop where
  | waits : Sends self task self
  | sent {front back : List (List α)} {value : α} {rest : List α} {after : Mailbox α capacity}
    (next : self.next task = some value) (position : front.length = task)
    (before : self.tasks = front ++ (value :: rest) :: back)
    (tasks : after.tasks = front ++ rest :: back) (queue : after.queue = self.queue ++ [value]) :
    Sends self task after

theorem send_sends (self : Mailbox α capacity) (task : Nat) : self.Sends task (self.send task) := by
  rw [send]
  split
  · rename_i value rest found
    obtain ⟨inside, here⟩ := List.getElem?_eq_some_iff.mp found
    cases pushed : self.push value with
    | none => exact .waits
    | some after =>
      obtain ⟨-, queue⟩ := push_eq_some pushed
      have before : self.tasks =
          self.tasks.take task ++ (value :: rest) :: self.tasks.drop (task + 1) := by
        rw [← here, ← List.drop_eq_getElem_cons inside, List.take_append_drop]
      have tasks : self.tasks.set task rest =
          self.tasks.take task ++ rest :: self.tasks.drop (task + 1) := by
        rw [List.set_eq_take_append_cons_drop, if_pos inside]
      have next : self.next task = some value := by
        rw [Mailbox.next, found]
        rfl
      exact .sent next (List.length_take_of_le (Nat.le_of_lt inside)) before tasks queue
  · exact .waits

theorem recv_eq_some (received : self.recv = some (value, after)) :
    self.queue = value :: after.queue ∧ after.tasks = self.tasks := by
  rw [recv] at received
  split at received
  · cases received
  · rename_i queued
    obtain ⟨rfl, rfl⟩ := Prod.mk.inj (Option.some.inj received)
    exact ⟨queued, rfl⟩

/-! ## What the receiver meets -/

variable {receive : σ → α → σ} {condition : σ → α → Prop} {state : σ} {before others later : List α} {task : Nat}

def Neutral (receive : σ → α → σ) (value : α) : Prop := ∀ state, receive state value = state

theorem run_neutral {values : List α} (neutral : ∀ value ∈ values, Neutral receive value) :
    run receive state values = state := by
  induction values generalizing state with
  | nil => rfl
  | cons value rest ih =>
    obtain ⟨here, later⟩ := List.forall_mem_cons.mp neutral
    rw [run_cons, here, ih later]

/-- A value passes others without a change to what the receiver meets: there are none, or it and they are
neutral. -/
def Passes (receive : σ → α → σ) (others : List α) (value : α) : Prop :=
  others = [] ∨ Neutral receive value ∧ ∀ other ∈ others, Neutral receive other

theorem Passes.run_eq (passes : Passes receive others value) :
    run receive state (before ++ [value] ++ (others ++ later)) =
      run receive state (before ++ (others ++ value :: later)) := by
  obtain rfl | ⟨neutral, neutrals⟩ := passes
  · simp
  · simp only [run_append, run_cons, run_nil, neutral _, run_neutral neutrals]

theorem Passes.throughout (passes : Passes receive others value)
    (meets : Throughout receive condition state (before ++ (others ++ value :: later))) :
    Throughout receive condition state (before ++ [value] ++ (others ++ later)) := by
  obtain rfl | ⟨neutral, neutrals⟩ := passes
  · simpa using meets
  · simp only [throughout_append, Throughout, run_append, run_cons, run_nil, neutral _,
      run_neutral neutrals] at meets ⊢
    obtain ⟨first, rest, here, last⟩ := meets
    exact ⟨⟨first, here, trivial⟩, rest, last⟩

/-- What a task sends next passes what the tasks before it have still to send. -/
def InOrder (receive : σ → α → σ) (self : Mailbox α capacity) (task : Nat) : Prop :=
  ∀ value ∈ self.next task, Passes receive (self.tasks.take task).flatten value

variable (ordered : self.InOrder receive task)
include ordered

theorem InOrder.passes : (self.send task).inFlight = self.inFlight ∨
      ∃ others value later, Passes receive others value ∧
        self.inFlight = self.queue ++ (others ++ value :: later) ∧
        (self.send task).inFlight = self.queue ++ [value] ++ (others ++ later) := by
  have sends := self.send_sends task
  generalize self.send task = after at sends ⊢
  cases sends with
  | waits => exact Or.inl rfl
  | @sent front back value rest _ next position before tasks queue =>
    have taken : self.tasks.take task = front := by rw [before, ← position, List.take_left]
    refine Or.inr ⟨front.flatten, value, rest ++ back.flatten, taken ▸ ordered value next, ?_, ?_⟩
    · rw [inFlight, before]
      simp
    · rw [inFlight, tasks, queue]
      simp

theorem InOrder.run_send :
    run receive state (self.send task).inFlight = run receive state self.inFlight := by
  obtain same | ⟨others, value, later, passes, old, new⟩ := ordered.passes
  · rw [same]
  · rw [old, new, passes.run_eq]

theorem InOrder.throughout_send
    (meets : Throughout receive condition state self.inFlight) :
    Throughout receive condition state (self.send task).inFlight := by
  obtain same | ⟨others, value, later, passes, old, new⟩ := ordered.passes
  · rwa [same]
  · rw [old] at meets
    rw [new]
    exact passes.throughout meets

end Mailbox
