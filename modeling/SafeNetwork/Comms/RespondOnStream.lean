import SafeNetwork.Comms.Comm
import SafeNetwork.Messaging.WireMsg

/-!
# Answers on the stream of a client

`send_and_respond_on_stream` of `sn_comms/src/lib.rs`: a message goes to several nodes at once, and the client
gets one of their answers if enough of them answered and neighbours in the list of answers have the same
payload. Otherwise it gets an error. A failed target is reported as an event, also more than once.
-/

namespace SafeNetwork

variable {C : CommScheme} {W : WireScheme}

/-- The errors of `sn_comms` for a target. -/
inductive SendError (MsgId : Type) where
  | connectingToUnknownNode (msgId : MsgId)
  | failedSend (msgId : MsgId)

def areBytesEqual (one other : List UInt8) : Bool :=
  if one.length ≠ other.length then false else (one.zip other).all fun bytes => bytes.1 == bytes.2

/-- `are_equal` — whether two messages have the same payload. -/
def areEqual (a b : UsrMsgBytes) : Bool := areBytesEqual a.2.2 b.2.2

def targetTask (sendWithBiReturnResponse : C.NodeLink → UsrMsgBytes → Option UsrMsgBytes) (msgId : C.MsgId) :
    C.NodeId × Option C.NodeLink × UsrMsgBytes →
      (C.NodeId × Except (SendError C.MsgId) UsrMsgBytes) × List (C.NodeId × SendError C.MsgId)
  | (nodeId, none, _) => ((nodeId, .error (.connectingToUnknownNode msgId)), [])
  | (nodeId, some link, bytes) =>
    match sendWithBiReturnResponse link bytes with
    | some responseBytes => ((nodeId, .ok responseBytes), [])
    | none => ((nodeId, .error (.failedSend msgId)), [(nodeId, .failedSend msgId)])

/-- `error_response`, given what `WireMsg::serialize_msg_payload` makes of a `NetworkIssue` with
`InconsistentStorageNodeResponses`. -/
def errorResponse (payload : Option (List UInt8)) (msgId : W.MsgId) (dst : Dst W.toKeyScheme) :
    Option UsrMsgBytes :=
  payload.bind fun payload => (WireMsg.newMsg msgId payload (.dataResponse dst.name) dst).serialize.toOption

/-- `send_and_respond_on_stream`: the events it sends, and what it sends on the stream of the client. -/
def sendAndRespondOnStream (sendWithBiReturnResponse : C.NodeLink → UsrMsgBytes → Option UsrMsgBytes)
    (msgId : C.MsgId) (nodeBytes : List (C.NodeId × Option C.NodeLink × UsrMsgBytes)) (expectedTargets : Nat)
    (errorResponse : Option UsrMsgBytes) : List (C.NodeId × SendError C.MsgId) × List UsrMsgBytes :=
  let tasks := nodeBytes.map (targetTask sendWithBiReturnResponse msgId)
  let nodeResults := tasks.map (·.1)
  let succeeded := nodeResults.filterMap fun result => result.2.toOption.map (result.1, ·)
  let failed := nodeResults.filterMap fun result =>
    if result.2.toOption.isNone then some (result.1, .failedSend msgId) else none
  let events := tasks.flatMap (·.2) ++ failed
  let someFailed := decide (expectedTargets > succeeded.length)
  let allOkEqual := (succeeded.zip succeeded.tail).all fun window => areEqual window.1.2 window.2.2
  if someFailed || !allOkEqual then
    match errorResponse with
    | none => (events, [])
    | some bytes => (events, [bytes])
  else
    match succeeded.getLast? with
    | some (_, bytes) => (events, [bytes])
    | none => (events, [])

/-! ## What the client gets -/

theorem areBytesEqual_iff {one other : List UInt8} : areBytesEqual one other = true ↔ one = other := by
  induction one generalizing other with
  | nil => cases other <;> simp [areBytesEqual]
  | cons byte one ih =>
    cases other with
    | nil => simp [areBytesEqual]
    | cons byte' other =>
      rw [List.cons.injEq, ← ih]
      simp only [areBytesEqual, List.length_cons, ne_eq, Nat.add_right_cancel_iff, List.zip_cons_cons,
        List.all_cons]
      split_ifs <;> simp

theorem windows_equal {α : Type} (answers : List (α × UsrMsgBytes)) :
    ((answers.zip answers.tail).all fun window => areEqual window.1.2 window.2.2) = true ↔
      ∀ one ∈ answers, ∀ other ∈ answers, one.2.2.2 = other.2.2.2 := by
  cases answers with
  | nil => simp
  | cons first rest =>
    -- Along the list the payload of the first answer is passed on.
    have along : (((first :: rest).zip rest).all fun window => areEqual window.1.2 window.2.2) = true ↔
        ∀ other ∈ rest, other.2.2.2 = first.2.2.2 := by
      induction rest generalizing first with
      | nil => simp
      | cons next rest ih =>
        rw [List.zip_cons_cons, List.all_cons, Bool.and_eq_true, ih, areEqual, areBytesEqual_iff,
          List.forall_mem_cons]
        constructor
        · rintro ⟨same, later⟩
          exact ⟨same.symm, fun other mem => (later other mem).trans same.symm⟩
        · rintro ⟨same, later⟩
          exact ⟨same.symm, fun other mem => (later other mem).trans same.symm⟩
    rw [List.tail_cons, along]
    constructor
    · intro same one mem other mem'
      have all : ∀ other ∈ first :: rest, other.2.2.2 = first.2.2.2 := List.forall_mem_cons.mpr ⟨rfl, same⟩
      rw [all one mem, all other mem']
    · exact fun same other mem => same other (List.mem_cons_of_mem _ mem) first List.mem_cons_self

def answers (sendWithBiReturnResponse : C.NodeLink → UsrMsgBytes → Option UsrMsgBytes)
    (nodeBytes : List (C.NodeId × Option C.NodeLink × UsrMsgBytes)) : List (C.NodeId × UsrMsgBytes) :=
  nodeBytes.filterMap fun target =>
    (target.2.1.bind fun link => sendWithBiReturnResponse link target.2.2).map (target.1, ·)

def Agreed (expectedTargets : Nat) (answers : List (C.NodeId × UsrMsgBytes)) : Prop :=
  expectedTargets ≤ answers.length ∧ ∀ one ∈ answers, ∀ other ∈ answers, one.2.2.2 = other.2.2.2

variable {send : C.NodeLink → UsrMsgBytes → Option UsrMsgBytes} {msgId : C.MsgId}
  {nodeBytes : List (C.NodeId × Option C.NodeLink × UsrMsgBytes)} {expectedTargets : Nat}

theorem succeeded_eq : ((nodeBytes.map (targetTask send msgId)).map (·.1)).filterMap
    (fun result => result.2.toOption.map (result.1, ·)) = answers send nodeBytes := by
  rw [List.map_map, List.filterMap_map, answers]
  refine List.filterMap_congr fun target _ => ?_
  obtain ⟨nodeId, link, bytes⟩ := target
  cases link with
  | none => rfl
  | some link => cases answer : send link bytes <;> simp [targetTask, answer, Except.toOption]

theorem stream_eq {response : Option UsrMsgBytes} [Decidable (Agreed expectedTargets (answers send nodeBytes))] :
    (sendAndRespondOnStream send msgId nodeBytes expectedTargets response).2 =
      if Agreed expectedTargets (answers send nodeBytes) then
        ((answers send nodeBytes).getLast?.map (·.2)).toList else response.toList := by
  simp only [sendAndRespondOnStream, succeeded_eq]
  generalize answers send nodeBytes = given at *
  by_cases agreed : Agreed expectedTargets given
  · have windows := (windows_equal given).mpr agreed.2
    rw [if_pos agreed, windows, decide_eq_false (Nat.not_lt.mpr agreed.1), if_neg (by simp)]
    cases given.getLast? <;> rfl
  · have failed : (decide (expectedTargets > given.length) ||
        !(given.zip given.tail).all fun window => areEqual window.1.2 window.2.2) = true := by
      by_contra passed
      simp only [Bool.or_eq_true, decide_eq_true_eq, Bool.not_eq_true', not_or, Bool.not_eq_false] at passed
      exact agreed ⟨Nat.not_lt.mp passed.1, (windows_equal given).mp passed.2⟩
    rw [if_neg agreed, if_pos failed]
    cases response <;> rfl

/-- Where the error response can be serialized, the client gets at most one message, and one if a target is
expected to answer: the last answer, which has the payload of all, if enough targets answered and agree, and
the error if not. -/
theorem stream_answered {payload : Option (List UInt8)} {errorId : W.MsgId} {dst : Dst W.toKeyScheme}
    {error : UsrMsgBytes} (serialized : errorResponse payload errorId dst = some error) (send) (msgId : C.MsgId)
    (nodeBytes) (expectedTargets : Nat) :
    let stream := (sendAndRespondOnStream send msgId nodeBytes expectedTargets (errorResponse payload errorId dst)).2
    let answers := answers send nodeBytes
    stream.length ≤ 1 ∧ (1 ≤ expectedTargets → stream.length = 1) ∧
      (Agreed expectedTargets answers → ∀ response ∈ stream, (∃ answer ∈ answers, response = answer.2) ∧
        ∀ answer ∈ answers, response.2.2 = answer.2.2.2) ∧
      (¬ Agreed expectedTargets answers → stream = [error]) := by
  classical
  dsimp only
  rw [stream_eq, serialized]
  generalize answers send nodeBytes = given
  split_ifs with agreed
  · cases last : given.getLast? with
    | none =>
      obtain rfl := List.getLast?_eq_none_iff.mp last
      have none : ¬ 1 ≤ expectedTargets := fun some => absurd agreed.1 (Nat.not_le.mpr some)
      simp [agreed, none]
    | some answer =>
      have mem := List.mem_of_getLast? last
      refine ⟨by simp, by simp, fun _ response same => ?_, absurd agreed⟩
      obtain rfl := List.mem_singleton.mp same
      exact ⟨⟨answer, mem, rfl⟩, agreed.2 answer mem⟩
  · simp [agreed]

abbrev sampleAnswerWire : WireScheme := { sampleWire with encodeEnvelope := fun _ => .ok [] }

def sampleAnswer (link : Nat) (_ : UsrMsgBytes) : Option UsrMsgBytes := some ([], [], [UInt8.ofNat link])

def sampleTargets : List (Nat × Option Nat × UsrMsgBytes) := [(1, some 1, [], [], []), (2, some 2, [], [], [])]

def sampleErrorResponse : Option UsrMsgBytes :=
  errorResponse (W := sampleAnswerWire) (some [9]) true ⟨sampleName, (0 : Nat)⟩

theorem stream_answered_sample : ∃ error, sampleErrorResponse = some error ∧
    (sendAndRespondOnStream (C := CommState.sampleComm) sampleAnswer (0 : Nat) sampleTargets 2
      sampleErrorResponse).2 = [error] := by
  obtain ⟨error, serialized⟩ : ∃ error, sampleErrorResponse = some error := ⟨_, rfl⟩
  have answered := stream_answered (C := CommState.sampleComm) serialized sampleAnswer (0 : Nat) sampleTargets 2
  refine ⟨error, serialized, answered.2.2.2 fun agreed => ?_⟩
  cases agreed.2 (1, [], [], [1]) (by decide) (2, [], [], [2]) (by decide)

end SafeNetwork
