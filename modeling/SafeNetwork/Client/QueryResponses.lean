import SafeNetwork.XorName

/-!
# Responses to a query

`Session::check_query_responses`: a query goes to several elders, and the client makes one answer of what
they respond. Responses come in any order, and each is looked at as it comes. An error response is meant to
be overridden by a positive one, but the match names the errors of six kinds of responses only. Those of
the other three get into the last arm, and count as valid.
-/

namespace SafeNetwork

structure ResponseScheme where
  Chunk : Type
  Register : Type
  Entry : Type
  /-- `BTreeSet<(EntryHash, Entry)>`. -/
  Entries : Type
  User : Type
  Policy : Type
  Permissions : Type
  SpentProofShare : Type
  RequiredFee : Type
  DataError : Type
  CmdResponse : Type
  ClientError : Type
  JoinError : Type
  SocketAddr : Type
  MsgId : Type
  NodeId : Type
  chunkName : Chunk → XorName
  registerSize : Register → Nat
  /-- `Error::NoResponse` to a message from some nodes. -/
  noResponse : MsgId → List NodeId → ClientError

/-! ## Queries and responses -/

/-- `RegisterQuery`, without the addresses. -/
inductive SentRegisterQuery where
  | get
  | read
  | getEntry
  | getPolicy
  | getUserPermissions
  | getOwner
deriving DecidableEq

/-- `SpendQuery`, without the addresses. -/
inductive SpendQuery where
  | getFees
  | getSpentProofShares
deriving DecidableEq

/-- `DataQuery`, as far as its responses are concerned. -/
inductive SentQuery where
  | getChunk (address : XorName)
  | register (query : SentRegisterQuery)
  | spentbook (query : SpendQuery)

inductive QueryResponse (Q : ResponseScheme) where
  | getChunk (result : Except Q.DataError Q.Chunk)
  /-- Response to `RegisterQuery::Get`. -/
  | getRegister (result : Except Q.DataError Q.Register)
  /-- Response to `RegisterQuery::GetEntry`. -/
  | getRegisterEntry (result : Except Q.DataError Q.Entry)
  /-- Response to `RegisterQuery::GetOwner`. -/
  | getRegisterOwner (result : Except Q.DataError Q.User)
  /-- Response to `RegisterQuery::Read`. -/
  | readRegister (result : Except Q.DataError Q.Entries)
  /-- Response to `RegisterQuery::GetPolicy`. -/
  | getRegisterPolicy (result : Except Q.DataError Q.Policy)
  /-- Response to `RegisterQuery::GetUserPermissions`. -/
  | getRegisterUserPermissions (result : Except Q.DataError Q.Permissions)
  /-- Response to `SpendQuery::GetSpentProofShares`. -/
  | getSpentProofShares (result : Except Q.DataError (List Q.SpentProofShare))
  /-- Response to `SpendQuery::GetFees`. -/
  | getFees (result : Except Q.DataError Q.RequiredFee)

inductive MsgResponse (Q : ResponseScheme) where
  | queryResponse (src : Q.SocketAddr) (response : QueryResponse Q)
  | cmdResponse (src : Q.SocketAddr) (response : Q.CmdResponse)
  | failure (src : Q.SocketAddr) (error : Q.ClientError)

inductive ResponseKind where
  | chunk
  | register (query : SentRegisterQuery)
  | spentbook (query : SpendQuery)
deriving DecidableEq

variable {Q : ResponseScheme}

namespace QueryResponse

def isError : QueryResponse Q → Bool
  | getChunk r => r.isOk.not
  | getRegister r => r.isOk.not
  | getRegisterEntry r => r.isOk.not
  | getRegisterOwner r => r.isOk.not
  | readRegister r => r.isOk.not
  | getRegisterPolicy r => r.isOk.not
  | getRegisterUserPermissions r => r.isOk.not
  | getSpentProofShares r => r.isOk.not
  | getFees r => r.isOk.not

def kind : QueryResponse Q → ResponseKind
  | getChunk _ => .chunk
  | getRegister _ => .register .get
  | getRegisterEntry _ => .register .getEntry
  | getRegisterOwner _ => .register .getOwner
  | readRegister _ => .register .read
  | getRegisterPolicy _ => .register .getPolicy
  | getRegisterUserPermissions _ => .register .getUserPermissions
  | getSpentProofShares _ => .spentbook .getSpentProofShares
  | getFees _ => .spentbook .getFees

end QueryResponse

namespace SentQuery

def kind : SentQuery → ResponseKind
  | getChunk _ => .chunk
  | register query => .register query
  | spentbook query => .spentbook query

def chunkAddr : SentQuery → Option XorName
  | getChunk address => some address
  | _ => none

end SentQuery

/-! ## The loop -/

/-- The variables of `check_query_responses`. -/
structure ResponseCheck (Q : ResponseScheme) where
  discardedResponses : Nat
  errorResponse : Option (QueryResponse Q)
  lastErrorResponse : Option Q.ClientError
  validResponse : Option (QueryResponse Q)

namespace ResponseCheck

def handle (self : ResponseCheck Q) (chunkAddr : Option XorName) (response : QueryResponse Q) :
    ResponseCheck Q × Bool :=
  match response with
  | .getChunk (.ok chunk) =>
    match chunkAddr with
    | some chunkAddr =>
      if chunkAddr = Q.chunkName chunk then
        ({ self with validResponse := some (.getChunk (.ok chunk)) }, true)
      else ({ self with discardedResponses := self.discardedResponses + 1 }, false)
    | none => (self, false)
  | .getRegister (.error _) | .readRegister (.error _) | .getRegisterPolicy (.error _)
  | .getRegisterOwner (.error _) | .getRegisterUserPermissions (.error _) | .getChunk (.error _) =>
    -- may be overridden by a non-error response from another elder
    ({ self with
      errorResponse := some response
      discardedResponses := self.discardedResponses + 1 }, false)
  | .getRegister (.ok register) =>
    match self.validResponse with
    | some (.getRegister (.ok priorResponse)) =>
      if Q.registerSize register > Q.registerSize priorResponse then
        ({ self with validResponse := some response }, false)
      else (self, false)
    | _ => ({ self with validResponse := some response }, false)
  | .readRegister (.ok _) =>
    if self.validResponse.isNone then ({ self with validResponse := some response }, false)
    else (self, false)
  | .getSpentProofShares (.ok spentproofSet) =>
    match self.validResponse with
    | some (.getSpentProofShares (.ok priorResponse)) =>
      if spentproofSet.length > priorResponse.length then
        ({ self with validResponse := some response }, false)
      else (self, false)
    | _ => ({ self with validResponse := some response }, false)
  | response => ({ self with validResponse := some response }, false)

/-- The loop of `check_query_responses`, over what the tasks return in the order they finish. -/
def loop (chunkAddr : Option XorName) :
    ResponseCheck Q → List (Except Q.JoinError (MsgResponse Q)) → ResponseCheck Q
  | self, [] => self
  | self, .error _ :: rest => loop chunkAddr self rest
  | self, .ok (.cmdResponse _ _) :: rest =>
    loop chunkAddr { self with discardedResponses := self.discardedResponses + 1 } rest
  | self, .ok (.failure _ error) :: rest =>
    loop chunkAddr { self with
      lastErrorResponse := some error
      discardedResponses := self.discardedResponses + 1 } rest
  | self, .ok (.queryResponse _ response) :: rest =>
    match self.handle chunkAddr response with
    | (self, true) => self
    | (self, false) => loop chunkAddr self rest

end ResponseCheck

def checkQueryResponses (msgId : Q.MsgId) (elders : List Q.NodeId) (chunkAddr : Option XorName)
    (responses : List (Except Q.JoinError (MsgResponse Q))) : Except Q.ClientError (QueryResponse Q) :=
  let check := ResponseCheck.loop chunkAddr ⟨0, none, none, none⟩ responses
  let failed : Except Q.ClientError (QueryResponse Q) :=
    match check.lastErrorResponse with
    | some error => .error error
    | none => .error (Q.noResponse msgId elders)
  match check.validResponse with
  | some response => .ok response
  | none =>
    match check.errorResponse with
    | some response => if check.discardedResponses > elders.length / 2 then .ok response else failed
    | none => failed

/-! ## A positive answer -/

def queryResponses (responses : List (Except Q.JoinError (MsgResponse Q))) : List (QueryResponse Q) :=
  responses.filterMap fun
    | .ok (.queryResponse _ response) => some response
    | _ => none

/-- A response answers a query: it is of its kind and no error, and a chunk has the requested name. -/
structure SentQuery.Answered (query : SentQuery) (response : QueryResponse Q) : Prop where
  kind : response.kind = query.kind
  positive : response.isError = false
  named : ∀ address chunk, query.chunkAddr = some address → response = .getChunk (.ok chunk) →
    address = Q.chunkName chunk

def ResponseKind.errorsKnown : ResponseKind → Bool
  | .chunk => true
  | .register query => query ≠ .getEntry
  | .spentbook _ => false

namespace ResponseCheck

variable {query : SentQuery} {self : ResponseCheck Q} {response : QueryResponse Q}
  {chunkAddr : Option XorName}

/-- A response that is not kept: an error of a kind whose errors are known, or a chunk of another name than
the requested one. -/
def Unfit (chunkAddr : Option XorName) (response : QueryResponse Q) : Prop :=
  (response.kind.errorsKnown = true ∧ response.isError = true) ∨
    ∃ chunk, response = .getChunk (.ok chunk) ∧ chunkAddr ≠ some (Q.chunkName chunk)

/-- What becomes of the best answer with a query response. -/
inductive Handled (chunkAddr : Option XorName) (self : ResponseCheck Q) (response : QueryResponse Q) :
    ResponseCheck Q × Bool → Prop where
  | unfit {after : ResponseCheck Q} (unfit : Unfit chunkAddr response)
    (same : after.validResponse = self.validResponse) : Handled chunkAddr self response (after, false)
  | outdone {prior : QueryResponse Q} (had : self.validResponse = some prior)
    (fit : ¬ Unfit chunkAddr response) (positive : response.isError = false)
    (alike : response.kind = .register .read ∨ (prior.kind = response.kind ∧ prior.isError = false)) :
    Handled chunkAddr self response (self, false)
  | best {after : ResponseCheck Q} {stop : Bool} (fit : ¬ Unfit chunkAddr response)
    (now : after.validResponse = some response)
    (stops : stop = true → response.kind = .chunk) : Handled chunkAddr self response (after, stop)

theorem fit_of_positive (positive : response.isError = false) (noChunk : response.kind ≠ .chunk) :
    ¬ Unfit chunkAddr response := by
  rintro (⟨-, error⟩ | ⟨chunk, rfl, -⟩)
  · rw [positive] at error
    cases error
  · exact noChunk rfl

theorem fit_of_unknown (unknown : response.kind.errorsKnown = false) : ¬ Unfit chunkAddr response := by
  rintro (⟨known, -⟩ | ⟨chunk, rfl, -⟩)
  · rw [unknown] at known
    cases known
  · cases unknown

theorem handle_getChunk (chunkAddr : Option XorName) (self : ResponseCheck Q) (chunk : Q.Chunk) :
    Handled chunkAddr self (.getChunk (.ok chunk)) (self.handle chunkAddr (.getChunk (.ok chunk))) := by
  cases chunkAddr with
  | none => exact .unfit (.inr ⟨chunk, rfl, by simp⟩) rfl
  | some address =>
    simp only [handle]
    split_ifs with named
    · refine .best ?_ rfl fun _ => rfl
      rintro (⟨-, error⟩ | ⟨other, same, apart⟩)
      · cases error
      · obtain rfl := Except.ok.inj (QueryResponse.getChunk.inj same)
        exact apart (by rw [named])
    · refine .unfit (.inr ⟨chunk, rfl, ?_⟩) rfl
      simpa using named

theorem handle_handled (chunkAddr : Option XorName) (self : ResponseCheck Q) (response : QueryResponse Q) :
    Handled chunkAddr self response (self.handle chunkAddr response) := by
  cases response with
  | getChunk result =>
    cases result with
    | error error => exact .unfit (.inl ⟨rfl, rfl⟩) rfl
    | ok chunk => exact handle_getChunk chunkAddr self chunk
  | getRegister result =>
    cases result with
    | error error => exact .unfit (.inl ⟨rfl, rfl⟩) rfl
    | ok register =>
      have fit : ¬ Unfit chunkAddr (.getRegister (.ok register) : QueryResponse Q) :=
        fit_of_positive rfl (by simp [QueryResponse.kind])
      simp only [handle]
      split
      · rename_i prior had
        split_ifs
        · exact .best fit rfl (by simp)
        · exact .outdone had fit rfl (.inr ⟨rfl, rfl⟩)
      · exact .best fit rfl (by simp)
  | readRegister result =>
    cases result with
    | error error => exact .unfit (.inl ⟨rfl, rfl⟩) rfl
    | ok entries =>
      have fit : ¬ Unfit chunkAddr (.readRegister (.ok entries) : QueryResponse Q) :=
        fit_of_positive rfl (by simp [QueryResponse.kind])
      simp only [handle]
      cases had : self.validResponse with
      | none => exact .best fit rfl (by simp)
      | some prior => exact .outdone had fit rfl (.inl rfl)
  | getRegisterPolicy result =>
    cases result with
    | error error => exact .unfit (.inl ⟨rfl, rfl⟩) rfl
    | ok policy => exact .best (fit_of_positive rfl (by simp [QueryResponse.kind])) rfl (by simp)
  | getRegisterOwner result =>
    cases result with
    | error error => exact .unfit (.inl ⟨rfl, rfl⟩) rfl
    | ok owner => exact .best (fit_of_positive rfl (by simp [QueryResponse.kind])) rfl (by simp)
  | getRegisterUserPermissions result =>
    cases result with
    | error error => exact .unfit (.inl ⟨rfl, rfl⟩) rfl
    | ok permissions => exact .best (fit_of_positive rfl (by simp [QueryResponse.kind])) rfl (by simp)
  | getSpentProofShares result =>
    cases result with
    | error error => exact .best (fit_of_unknown rfl) rfl (by simp)
    | ok shares =>
      have fit : ¬ Unfit chunkAddr (.getSpentProofShares (.ok shares) : QueryResponse Q) :=
        fit_of_unknown rfl
      simp only [handle]
      split
      · rename_i prior had
        split_ifs
        · exact .best fit rfl (by simp)
        · exact .outdone had fit rfl (.inr ⟨rfl, rfl⟩)
      · exact .best fit rfl (by simp)
  | getRegisterEntry result => exact .best (fit_of_unknown rfl) rfl (by simp)
  | getFees result => exact .best (fit_of_unknown rfl) rfl (by simp)

theorem answered_iff_fit (known : query.kind.errorsKnown = true) (ofKind : response.kind = query.kind) :
    query.Answered response ↔ ¬ Unfit query.chunkAddr response := by
  constructor
  · rintro ⟨-, positive, named⟩ (⟨-, error⟩ | ⟨chunk, rfl, apart⟩)
    · rw [positive] at error
      cases error
    · cases query with
      | getChunk address => exact apart (by rw [← named address chunk rfl rfl]; rfl)
      | register query => cases ofKind
      | spentbook query => cases ofKind
  · intro fit
    refine ⟨ofKind, ?_, fun address chunk passed same => ?_⟩
    · by_contra error
      exact fit (.inl ⟨by rw [ofKind, known], by simpa using error⟩)
    · by_contra apart
      exact fit (.inr ⟨chunk, same, by rw [passed]; simpa using apart⟩)

/-- The rule of the loop: what every query response keeps, of the best answer and the query responses to
come, gives what is wanted of the best answer at the end. -/
theorem loop_invariant {K : Option (QueryResponse Q) → List (QueryResponse Q) → Prop}
    {W : Option (QueryResponse Q) → Prop} (ends : ∀ valid, K valid [] → W valid)
    (step : ∀ {before after : ResponseCheck Q} {response : QueryResponse Q} {rest : List (QueryResponse Q)}
      {stop : Bool}, Handled chunkAddr before response (after, stop) → K before.validResponse (response :: rest) →
        if stop = true then W after.validResponse else K after.validResponse rest)
    (self : ResponseCheck Q) (responses : List (Except Q.JoinError (MsgResponse Q)))
    (starts : K self.validResponse (queryResponses responses)) : W (loop chunkAddr self responses).validResponse := by
  induction responses generalizing self with
  | nil => exact ends _ starts
  | cons first rest ih =>
    rcases first with _ | (⟨src, response⟩ | _ | _)
    · exact ih _ starts
    · have handled := handle_handled chunkAddr self response
      simp only [loop]
      split
      · rename_i after outcome
        rw [outcome] at handled
        exact step handled starts
      · rename_i after outcome
        rw [outcome] at handled
        exact ih after (step handled starts)
    · exact ih _ starts
    · exact ih _ starts

theorem loop_known (known : query.kind.errorsKnown = true) (responses : List (Except Q.JoinError (MsgResponse Q)))
    (ofKind : ∀ response ∈ queryResponses responses, response.kind = query.kind)
    (answered : ∃ response ∈ queryResponses responses, query.Answered response) :
    ∃ valid, (loop query.chunkAddr ⟨0, none, none, none⟩ responses).validResponse = some valid ∧
      query.Answered valid := by
  refine loop_invariant
    (K := fun best rest => (∀ response ∈ rest, response.kind = query.kind) ∧
      (∀ valid, best = some valid → query.Answered valid) ∧
      ((∃ valid, best = some valid) ∨ ∃ response ∈ rest, query.Answered response))
    (W := fun best => ∃ valid, best = some valid ∧ query.Answered valid) ?_ ?_ _ _
    ⟨ofKind, by simp, .inr answered⟩
  · rintro best ⟨-, answers, ⟨valid, had⟩ | ⟨response, mem, -⟩⟩
    · exact ⟨valid, had, answers valid had⟩
    · cases mem
  · rintro before after response rest stop handled ⟨ofKind, answers, answered⟩
    obtain ⟨here, later⟩ := List.forall_mem_cons.mp ofKind
    cases handled with
    | unfit unfit same =>
      rw [same]
      refine ⟨later, answers, answered.imp_right ?_⟩
      rintro ⟨other, mem, good⟩
      rcases List.mem_cons.mp mem with rfl | mem
      · exact absurd unfit ((answered_iff_fit known here).mp good)
      · exact ⟨other, mem, good⟩
    | outdone had => exact ⟨later, answers, .inl ⟨_, had⟩⟩
    | best fit now =>
      have good := (answered_iff_fit known here).mpr fit
      rw [now]
      split_ifs
      · exact ⟨response, rfl, good⟩
      · exact ⟨later, fun valid had => Option.some.inj had ▸ good, .inl ⟨response, rfl⟩⟩

theorem loop_unknown (unknown : query.kind.errorsKnown = false)
    (responses : List (Except Q.JoinError (MsgResponse Q)))
    (ofKind : ∀ response ∈ queryResponses responses, response.kind = query.kind) {error : Bool}
    (ends : ((queryResponses responses).map QueryResponse.isError).getLast? = some error) :
    ∃ valid, (loop query.chunkAddr ⟨0, none, none, none⟩ responses).validResponse = some valid ∧
      valid.kind = query.kind ∧ valid.isError = error := by
  refine loop_invariant
    (K := fun best rest => (∀ response ∈ rest, response.kind = query.kind) ∧
      (∀ valid, best = some valid → valid.kind = query.kind) ∧
      ((best.toList ++ rest).map QueryResponse.isError).getLast? = some error)
    (W := fun best => ∃ valid, best = some valid ∧ valid.kind = query.kind ∧ valid.isError = error)
    ?_ ?_ _ _ ⟨ofKind, by simp, ends⟩
  · rintro (_ | valid) ⟨-, best, ends⟩
    · cases ends
    · exact ⟨valid, rfl, best valid rfl, Option.some.inj ends⟩
  · rintro before after response rest stop handled ⟨ofKind, best, ends⟩
    obtain ⟨here, later⟩ := List.forall_mem_cons.mp ofKind
    cases handled with
    | unfit unfit => exact absurd unfit (fit_of_unknown (by rw [here, unknown]))
    | @outdone prior had fit positive alike =>
      -- The earlier answer is no error either, so that it can stand for this one.
      obtain ⟨-, alike⟩ : prior.kind = response.kind ∧ prior.isError = false := by
        refine alike.resolve_left fun read => ?_
        rw [← here, read] at unknown
        cases unknown
      refine ⟨later, best, ?_⟩
      rw [had] at ends ⊢
      simpa [alike, positive, List.getLast?_cons_cons] using ends
    | best fit now stops =>
      rw [now]
      split_ifs with stopped
      · rw [← here, stops stopped] at unknown
        cases unknown
      · refine ⟨later, fun valid had => Option.some.inj had ▸ here, ?_⟩
        cases had : before.validResponse with
        | none => simpa [had] using ends
        | some valid => simpa [had, List.getLast?_cons_cons] using ends

end ResponseCheck

/-- For every query and every order of its responses with a positive answer among them: the client returns a
positive answer if and only if the errors of its kind are known, or the last query response is no error. -/
theorem checkQueryResponses_answered_iff (query : SentQuery) (msgId : Q.MsgId) (elders : List Q.NodeId)
    (responses : List (Except Q.JoinError (MsgResponse Q)))
    (ofKind : ∀ response ∈ queryResponses responses, response.kind = query.kind)
    (answered : ∃ response ∈ queryResponses responses, query.Answered response) :
    (∃ response, checkQueryResponses msgId elders query.chunkAddr responses = .ok response ∧
        query.Answered response) ↔
      (query.kind.errorsKnown = true ∨
        ((queryResponses responses).getLast?.map QueryResponse.isError) = some false) := by
  have returned : ∀ {valid},
      (ResponseCheck.loop query.chunkAddr ⟨0, none, none, none⟩ responses).validResponse = some valid →
      checkQueryResponses msgId elders query.chunkAddr responses = .ok valid := by
    intro valid had
    rw [checkQueryResponses, had]
  cases known : query.kind.errorsKnown with
  | true =>
    obtain ⟨valid, had, answers⟩ := ResponseCheck.loop_known known responses ofKind answered
    simp only [true_or, iff_true]
    exact ⟨valid, returned had, answers⟩
  | false =>
    obtain ⟨some, mem, -⟩ := answered
    obtain ⟨last, ends⟩ := Option.ne_none_iff_exists'.mp
      (mt List.getLast?_eq_none_iff.mp (List.ne_nil_of_mem mem))
    obtain ⟨valid, had, here, error⟩ := ResponseCheck.loop_unknown known responses ofKind
      (by rw [List.getLast?_map, ends, Option.map_some])
    have answers : query.Answered valid ↔ last.isError = false := by
      rw [← error]
      refine ⟨SentQuery.Answered.positive, fun positive => ⟨here, positive, fun address chunk _ same => ?_⟩⟩
      rw [← here, same] at known
      cases known
    simp only [returned had, Except.ok.injEq, exists_eq_left', answers, ends, Option.map_some,
      Option.some.injEq, Bool.false_eq_true, false_or]

/-! ## Sample responses -/

abbrev sampleResponses : ResponseScheme where
  Chunk := XorName
  Register := Nat
  Entry := Nat
  Entries := Nat
  User := Nat
  Policy := Nat
  Permissions := Nat
  SpentProofShare := Nat
  RequiredFee := Nat
  DataError := Unit
  CmdResponse := Unit
  ClientError := Unit
  JoinError := Unit
  SocketAddr := Nat
  MsgId := Nat
  NodeId := Nat
  chunkName chunk := chunk
  registerSize register := register
  noResponse _ _ := ()

theorem checkQueryResponses_answered_sampleEntry :
    ∃ response, checkQueryResponses (Q := sampleResponses) (0 : Nat) [(1 : Nat), (2 : Nat)]
        (SentQuery.register .getEntry).chunkAddr
        [.ok (.queryResponse (1 : Nat) (.getRegisterEntry (.error ()))),
          .ok (.queryResponse (2 : Nat) (.getRegisterEntry (.ok (5 : Nat))))] = .ok response ∧
      (SentQuery.register .getEntry).Answered response :=
  (checkQueryResponses_answered_iff (Q := sampleResponses) (.register .getEntry) (0 : Nat)
    [(1 : Nat), (2 : Nat)] _ (by simp [queryResponses, QueryResponse.kind, SentQuery.kind])
    ⟨.getRegisterEntry (.ok (5 : Nat)), by simp [queryResponses], rfl, rfl, by simp [SentQuery.chunkAddr]⟩).mpr
      (.inr rfl)

/-- The register entry is not known to the second elder: its error is returned, and the entry of the first
one is lost. -/
theorem checkQueryResponses_entry_lost : checkQueryResponses (Q := sampleResponses) (0 : Nat) [(1 : Nat), (2 : Nat)]
        (SentQuery.register .getEntry).chunkAddr
        [.ok (.queryResponse (1 : Nat) (.getRegisterEntry (.ok (5 : Nat)))),
          .ok (.queryResponse (2 : Nat) (.getRegisterEntry (.error ())))] =
      .ok (.getRegisterEntry (.error ())) :=
  rfl

end SafeNetwork
