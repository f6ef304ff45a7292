import Mathlib

/-!
# Links to nodes

`sn_comms/src/node_link.rs`. `NodeLink::send` uses the cached connections and then new ones, and gives up after
too many retries. A retry counts when no connection can be made, or when the connection is closed at this end
and at most one is left. Any other error of a connection takes it out of the cache without being counted, so
`send` has no bound of its own on the connections that it makes.
-/

namespace SafeNetwork

abbrev ConnId : Type := String

/-- `qp2p::ConnectionError`, with `Close::Local` and `Close::Application`. -/
inductive ConnectionError where
  | closedLocal
  | closedApplication
  | timedOut
  | other

/-- `NodeLinkError`, with `qp2p::SendError`. -/
inductive NodeLinkError where
  | connection (error : ConnectionError)
  | connectionLost (error : ConnectionError)
  | streamLost
  | maxRetriesReached (retries : Nat)

def NodeLinkError.isLocalClose : NodeLinkError → Bool
  | .connection .closedLocal | .connectionLost .closedLocal => true
  | _ => false

def maxSendjobRetries : Nat := 3

/-- What comes of connecting and of sending in a round of `NodeLink::send`, if it does so. -/
structure LinkOutcome where
  connectTo : Except NodeLinkError ConnId
  sendWith : Except NodeLinkError Unit

/-- `NodeLink` — its connections, in the order of the map, and how many it has tried to make. -/
structure NodeLink where
  connections : List ConnId
  attempts : Nat

namespace NodeLink

def createConnection (outcome : LinkOutcome) (link : NodeLink) : Except NodeLinkError ConnId × NodeLink :=
  match outcome.connectTo with
  | .error error => (.error error, { link with attempts := link.attempts + 1 })
  | .ok connId => (.ok connId, ⟨connId :: link.connections.filter (· ≠ connId), link.attempts + 1⟩)

def getOrConnect (outcome : LinkOutcome) (link : NodeLink) : Except NodeLinkError ConnId × NodeLink :=
  match link.connections with
  | connId :: _ => (.ok connId, link)
  | [] => createConnection outcome link

def sendWithConnection (outcome : LinkOutcome) (connId : ConnId) (link : NodeLink) :
    Except NodeLinkError Unit × NodeLink :=
  match outcome.sendWith with
  | .ok () => (.ok (), link)
  | .error error => (.error error, { link with connections := link.connections.filter (· ≠ connId) })

/-- A call of `NodeLink::send`, in its loop or at its end. -/
inductive Sending where
  | running (link : NodeLink) (connectionRetries : Nat)
  | ended (link : NodeLink) (result : Except NodeLinkError Unit)

/-- The body of the loop of `NodeLink::send`. -/
def sendRound (outcome : LinkOutcome) (link : NodeLink) (connectionRetries : Nat) : Sending :=
  if connectionRetries > maxSendjobRetries then .ended link (.error (.maxRetriesReached maxSendjobRetries))
  else
    match getOrConnect outcome link with
    | (.error _, link) =>
      .running link (if link.connections.isEmpty then connectionRetries + 1 else connectionRetries)
    | (.ok connId, link) =>
      match sendWithConnection outcome connId link with
      | (.ok (), link) => .ended link (.ok ())
      | (.error error, link) =>
        .running link (if error.isLocalClose ∧ link.connections.length ≤ 1 then connectionRetries + 1
          else connectionRetries)

/-- `NodeLink::send` after a number of rounds of its loop. -/
def send (outcomes : Nat → LinkOutcome) (connections : List ConnId) : Nat → Sending
  | 0 => .running ⟨connections, 0⟩ 0
  | rounds + 1 =>
    match send outcomes connections rounds with
    | .running link connectionRetries => sendRound (outcomes rounds) link connectionRetries
    | .ended link result => .ended link result

/-! ## How many connections a call makes -/

/-- Whether a round makes a connection on which sending fails, not by being closed at this end. -/
def uncounted (outcome : LinkOutcome) : Sending → Bool
  | .running link _ =>
    match link.connections, outcome.connectTo, outcome.sendWith with
    | [], .ok _, .error error => !error.isLocalClose
    | _, _, _ => false
  | .ended _ _ => false

def uncountedRounds (outcomes : Nat → LinkOutcome) (connections : List ConnId) (rounds : Nat) : Nat :=
  (List.range rounds).countP fun round => uncounted (outcomes round) (send outcomes connections round)

/-- Each attempt counts as a retry or is uncounted, and each round uses up a connection or an attempt. -/
def Bounded (cached missed rounds : Nat) : Sending → Prop
  | .running link connectionRetries => connectionRetries ≤ maxSendjobRetries + 1 ∧
      link.attempts ≤ connectionRetries + missed ∧ rounds + link.connections.length ≤ cached + link.attempts
  | .ended link _ => link.attempts ≤ maxSendjobRetries + 1 + missed

variable {cached missed rounds connectionRetries : Nat} {link : NodeLink}

theorem sendRound_bounded (outcome : LinkOutcome)
    (bounded : Bounded cached missed rounds (.running link connectionRetries)) :
    Bounded cached (missed + (uncounted outcome (.running link connectionRetries)).toNat) (rounds + 1)
      (sendRound outcome link connectionRetries) := by
  obtain ⟨connections, attempts⟩ := link
  obtain ⟨retries, tried, used⟩ := bounded
  dsimp only at tried used
  by_cases many : connectionRetries > maxSendjobRetries
  · rw [sendRound, if_pos many]
    show attempts ≤ _
    omega
  rw [sendRound, if_neg many]
  cases connections with
  | cons connId rest =>
    have removed : ((connId :: rest).filter (· ≠ connId)).length ≤ rest.length := by
      rw [List.filter_cons_of_neg (by simp)]
      exact List.length_filter_le ..
    rw [List.length_cons] at used
    simp only [getOrConnect, sendWithConnection]
    cases outcome.sendWith with
    | ok =>
      show attempts ≤ _
      omega
    | error error =>
      have shorter : rounds + 1 + ((connId :: rest).filter (· ≠ connId)).length ≤ cached + attempts := by omega
      refine ⟨?_, ?_, shorter⟩ <;> dsimp only <;> split <;> omega
  | nil =>
    rw [List.length_nil] at used
    simp only [getOrConnect, createConnection, uncounted]
    cases outcome.connectTo with
    | error error => refine ⟨?_, ?_, ?_⟩ <;> simp only [List.isEmpty_nil, List.length_nil, if_true] <;> omega
    | ok connId =>
      simp only [sendWithConnection, List.filter_nil]
      cases outcome.sendWith with
      | ok =>
        show attempts + 1 ≤ _
        omega
      | error error =>
        have removed : ([connId].filter (· ≠ connId)).length = 0 := by simp
        cases closed : error.isLocalClose <;> refine ⟨?_, ?_, ?_⟩ <;> simp [closed] <;> omega

theorem send_bounded (outcomes : Nat → LinkOutcome) (connections : List ConnId) (rounds : Nat) :
    Bounded connections.length (uncountedRounds outcomes connections rounds) rounds
      (send outcomes connections rounds) := by
  induction rounds with
  | zero => exact ⟨Nat.zero_le _, Nat.zero_le _, by simp⟩
  | succ rounds ih =>
    rw [uncountedRounds, List.range_succ, List.countP_append, List.countP_singleton, ← uncountedRounds, send]
    cases now : send outcomes connections rounds with
    | running link connectionRetries =>
      rw [now] at ih
      have next := sendRound_bounded (outcomes rounds) ih
      cases missed : uncounted (outcomes rounds) (.running link connectionRetries) <;>
        simpa [missed] using next
    | ended link result =>
      rw [now] at ih
      exact ih.trans (by omega)

end NodeLink

end SafeNetwork
