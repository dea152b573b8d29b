import RecipesCore.Server.Routing

/-!
# The session coroutines

`Server::Session` and `Server::TlsSession`, cut at the points where they can be interrupted: the
`co_await`s, and at the start the step between moving the socket and replacing the close handle. A
`Resumption` says what an awaited operation came back with. An exception is a `std::exception`;
nothing else is thrown here. Whether `socket().is_open()` is not for the session to decide, so each
step is told.

`SessionStep` says once what a step of either coroutine can do.
-/

namespace RecipesCore.Net

open RecipesCore.Api

/-! ## Reading -/

/-- What `http::async_read` fails with: the codes of a `boost::system::system_error`. -/
inductive ReadError where
  | bodyLimit
  | headerLimit
  | endOfStream
  | partialMessage
  | badSyntax
  | timeout
  | other (code : Nat)
  deriving DecidableEq, Repr

/-- The two codes the inner `catch` looks for. -/
def ReadError.isLimit : ReadError → Bool
  | .bodyLimit | .headerLimit => true
  | _ => false

inductive ReadOutcome where
  | complete (request : Request)
  /-- A `system_error`; `parser.release()` returns what was parsed so far. -/
  | failed (error : ReadError) (parsed : Request)
  /-- An exception of another type. -/
  | threw
  deriving DecidableEq, Repr

/-! ## The coroutines -/

/-- Where a session stands. -/
inductive Point where
  | spawned
  /-- The socket is in the stream, and the close handle is still the old one. -/
  | moved
  | shaking
  | reading
  /-- In `SendPayloadLimitResponse`. -/
  | limiting
  | handling
  | writing (keepAlive : Bool)
  | returned
  deriving DecidableEq, Repr

inductive Resumption where
  | move
  | replaceClose
  /-- `async_handshake`, and the server name the client sent; `none` when it threw. -/
  | shook (handshake : Option (Option String))
  | read (outcome : ReadOutcome)
  /-- `HandleAsync`; `none` when it threw. -/
  | handled (response : Option Response)
  | wrote (succeeded : Bool)
  deriving DecidableEq, Repr

/-- What a session does, and what its reads come back with. -/
inductive SessionAction where
  | read (outcome : ReadOutcome)
  | route (request : Request)
  | write (response : Response)
  /-- The write of `SendPayloadLimitResponse`. -/
  | refuse (response : Response)
  | unregister
  deriving DecidableEq, Repr

/-- The parts of `config::TlsConfig` a session looks at. -/
structure TlsConfig where
  serverName : String := ""
  enableHsts : Bool := false
  deriving DecidableEq, Repr

/-- What `SendPayloadLimitResponse` sends. -/
def payloadLimitResponse (version : Nat) : Response :=
  Response.preparePayload
    { status := .payloadTooLarge, version, keepAlive := false
      contentType := some "application/json"
      body := "\x7b\"code\":\"payload_too_large\",\"message\":\"Request exceeds configured limits\"\x7d" }

/-- `UnregisterSession(control); co_return;` -/
def returns : Point × List SessionAction := (.returned, [.unregister])

/-- The head of the `while` loop. -/
def loop (isOpen : Bool) : Point × List SessionAction :=
  if isOpen then (.reading, []) else returns

/-- After `async_read`. -/
def afterRead : ReadOutcome → Point × List SessionAction
  | .complete request => (.handling, [.read (.complete request), .route request])
  | .failed error parsed =>
      if error.isLimit then
        (.limiting, [.read (.failed error parsed), .refuse (payloadLimitResponse 11)])
      else (.handling, [.read (.failed error parsed), .route parsed])
  | .threw => (.returned, [.read .threw, .unregister])

def Session (isOpen : Bool) : Point → Resumption → Option (Point × List SessionAction)
  | .spawned, .move => some (.moved, [])
  | .moved, .replaceClose => some (loop isOpen)
  | .reading, .read outcome => some (afterRead outcome)
  | .limiting, .wrote _ => some returns
  | .handling, .handled (some response) =>
      some (.writing response.keepAlive, [.write response])
  | .handling, .handled none => some returns
  | .writing keepAlive, .wrote true => some (if keepAlive then loop isOpen else returns)
  | .writing _, .wrote false => some returns
  | _, _ => none

/-- `response.set(http::field::strict_transport_security, …)`. -/
def Response.withHsts (response : Response) : Response :=
  { response with strictTransportSecurity := some "max-age=31536000; includeSubDomains" }

def TlsSession (config : TlsConfig) (isOpen : Bool) :
    Point → Resumption → Option (Point × List SessionAction)
  | .spawned, .move => some (.moved, [])
  | .moved, .replaceClose => some (.shaking, [])
  | .shaking, .shook none => some returns
  | .shaking, .shook (some serverName) =>
      if config.serverName ≠ "" ∧ serverName ≠ some config.serverName then some returns
      else some (loop isOpen)
  | .reading, .read outcome => some (afterRead outcome)
  | .limiting, .wrote _ => some returns
  | .handling, .handled (some response) =>
      let response := if config.enableHsts then response.withHsts else response
      some (.writing response.keepAlive, [.write response])
  | .handling, .handled none => some returns
  | .writing keepAlive, .wrote true => some (if keepAlive then loop isOpen else returns)
  | .writing _, .wrote false => some returns
  | _, _ => none

/-! ## What a step can do -/

def Point.beforeLoop : Point → Bool
  | .spawned | .moved | .shaking => true
  | _ => false

inductive SessionStep : Point → List SessionAction → Point → Prop where
  | prologue {p q : Point} : p.beforeLoop = true → q.beforeLoop = true ∨ q = .reading →
      SessionStep p [] q
  | again : SessionStep (.writing true) [] .reading
  | full (request : Request) :
      SessionStep .reading [.read (.complete request), .route request] .handling
  | overLimit {error : ReadError} (parsed : Request) : error.isLimit = true →
      SessionStep .reading
        [.read (.failed error parsed), .refuse (payloadLimitResponse 11)] .limiting
  | broken {error : ReadError} (parsed : Request) : error.isLimit = false →
      SessionStep .reading [.read (.failed error parsed), .route parsed] .handling
  | threw : SessionStep .reading [.read .threw, .unregister] .returned
  | respond (response : Response) (keepAlive : Bool) :
      SessionStep .handling [.write response] (.writing keepAlive)
  | stop {p : Point} : p ≠ .reading → p ≠ .returned → SessionStep p [.unregister] .returned

theorem sessionStep_loop {p : Point} (isOpen : Bool)
    (h : p.beforeLoop = true ∨ p = .writing true) :
    SessionStep p (loop isOpen).2 (loop isOpen).1 := by
  cases isOpen with
  | true =>
      rcases h with h | rfl
      · exact .prologue h (Or.inr rfl)
      · exact .again
  | false =>
      refine .stop ?_ ?_
      · rintro rfl
        simp [Point.beforeLoop] at h
      · rintro rfl
        simp [Point.beforeLoop] at h

theorem sessionStep_afterRead (outcome : ReadOutcome) :
    SessionStep .reading (afterRead outcome).2 (afterRead outcome).1 := by
  cases outcome with
  | complete request => exact .full request
  | failed error parsed =>
      rw [afterRead]
      split
      · next h => exact .overLimit parsed h
      · next h => exact .broken parsed (by simpa using h)
  | threw => exact .threw

section

variable {isOpen : Bool} {p q : Point} {resumption : Resumption} {actions : List SessionAction}

/-- The end of a round: the loop goes on, or the session returns. -/
theorem sessionStep_wrote (isOpen keepAlive : Bool) :
    SessionStep (.writing keepAlive) (if keepAlive then loop isOpen else returns).2
      (if keepAlive then loop isOpen else returns).1 := by
  cases keepAlive with
  | true => exact sessionStep_loop isOpen (Or.inr rfl)
  | false => exact .stop nofun nofun

theorem sessionStep_of_session (h : Session isOpen p resumption = some (q, actions)) :
    SessionStep p actions q := by
  unfold Session at h
  split at h
  case h_1 => cases h; exact .prologue rfl (Or.inl rfl)
  -- the loop is entered
  case h_2 =>
    obtain ⟨rfl, rfl⟩ := Prod.mk.inj (Option.some.inj h)
    exact sessionStep_loop isOpen (Or.inl rfl)
  -- a read came back
  case h_3 =>
    obtain ⟨rfl, rfl⟩ := Prod.mk.inj (Option.some.inj h)
    exact sessionStep_afterRead _
  -- an answer, and what its write leads to
  case h_5 => cases h; exact .respond _ _
  case h_7 keepAlive =>
    have heq : (if keepAlive then loop isOpen else returns) = (q, actions) := Option.some.inj h
    have hstep := sessionStep_wrote isOpen keepAlive
    rwa [heq] at hstep
  case h_9 => cases h
  all_goals cases h; exact .stop nofun nofun

theorem sessionStep_of_tlsSession {config : TlsConfig}
    (h : TlsSession config isOpen p resumption = some (q, actions)) : SessionStep p actions q := by
  unfold TlsSession at h
  split at h
  case h_1 => cases h; exact .prologue rfl (Or.inl rfl)
  case h_2 => cases h; exact .prologue rfl (Or.inl rfl)
  -- the handshake succeeded: the server name is checked before the loop is entered
  case h_4 =>
    split at h
    · cases h; exact .stop nofun nofun
    · obtain ⟨rfl, rfl⟩ := Prod.mk.inj (Option.some.inj h)
      exact sessionStep_loop isOpen (Or.inl rfl)
  -- a read came back
  case h_5 =>
    obtain ⟨rfl, rfl⟩ := Prod.mk.inj (Option.some.inj h)
    exact sessionStep_afterRead _
  case h_7 => cases h; exact .respond _ _
  case h_9 keepAlive =>
    have heq : (if keepAlive then loop isOpen else returns) = (q, actions) := Option.some.inj h
    have hstep := sessionStep_wrote isOpen keepAlive
    rwa [heq] at hstep
  case h_11 => cases h
  all_goals cases h; exact .stop nofun nofun

end

section

variable {p q : Point} {actions : List SessionAction}

/-- A session that has returned takes no step. -/
theorem SessionStep.live (h : SessionStep p actions q) : p ≠ .returned := by
  cases h with
  | prologue hp =>
      rintro rfl
      cases hp
  | stop _ hp => exact hp
  | _ => nofun

/-- A step calls `UnregisterSession`, and once, when it is the last. -/
theorem SessionStep.unregister (h : SessionStep p actions q) :
    actions.filter (· = .unregister) = if q = .returned then [.unregister] else [] := by
  cases h with
  | prologue _ hq =>
      rcases hq with hq | rfl
      · cases q <;> first | rfl | cases hq
      · rfl
  | _ => rfl

end

/-! ## Runs -/

/-- What a session has done after some resumptions, each of which must be what it waits for. -/
def runSession (next : Bool → Point → Resumption → Option (Point × List SessionAction)) :
    Point → List (Bool × Resumption) → Option (Point × List SessionAction)
  | p, [] => some (p, [])
  | p, (isOpen, resumption) :: rest =>
      match next isOpen p resumption with
      | none => none
      | some (p', actions) =>
          (runSession next p' rest).map fun (q, more) => (q, actions ++ more)

theorem runSession_cons {next : Bool → Point → Resumption → Option (Point × List SessionAction)}
    {p q : Point} {isOpen : Bool} {resumption : Resumption} {rest : List (Bool × Resumption)}
    {trace : List SessionAction}
    (h : runSession next p ((isOpen, resumption) :: rest) = some (q, trace)) :
    ∃ p' actions more, next isOpen p resumption = some (p', actions) ∧
      runSession next p' rest = some (q, more) ∧ trace = actions ++ more := by
  rw [runSession] at h
  split at h
  · cases h
  · next p' actions hnext =>
      obtain ⟨⟨q', more⟩, hrest, heq⟩ := Option.map_eq_some_iff.mp h
      obtain ⟨rfl, rfl⟩ := Prod.mk.inj heq
      exact ⟨p', actions, more, hnext, hrest, rfl⟩

/-- A run of either coroutine is a chain of steps. -/
inductive SessionSteps : Point → List SessionAction → Point → Prop where
  | nil (p : Point) : SessionSteps p [] p
  | cons {p p' q : Point} {actions more : List SessionAction} : SessionStep p actions p' →
      SessionSteps p' more q → SessionSteps p (actions ++ more) q

theorem sessionSteps_of_run
    {next : Bool → Point → Resumption → Option (Point × List SessionAction)}
    (hnext : ∀ isOpen p resumption q actions, next isOpen p resumption = some (q, actions) →
      SessionStep p actions q) {p q : Point} {inputs : List (Bool × Resumption)}
    {trace : List SessionAction} (h : runSession next p inputs = some (q, trace)) :
    SessionSteps p trace q := by
  induction inputs generalizing p trace with
  | nil => cases h; exact .nil _
  | cons input rest ih =>
      obtain ⟨p', actions, more, hstep, hrest, rfl⟩ := runSession_cons h
      exact .cons (hnext _ _ _ _ _ hstep) (ih hrest)

/-! ## What a session reads -/

def SessionAction.outcome? : SessionAction → Option ReadOutcome
  | .read outcome => some outcome
  | _ => none

def Resumption.outcome? : Resumption → Option ReadOutcome
  | .read outcome => some outcome
  | _ => none

/-- What the reads of a session come back with. -/
def readOutcomes (inputs : List (Bool × Resumption)) : List ReadOutcome :=
  inputs.filterMap fun input => input.2.outcome?

theorem afterRead_outcomes (outcome : ReadOutcome) :
    (afterRead outcome).2.filterMap SessionAction.outcome? = [outcome] := by
  cases outcome with
  | failed error parsed =>
      rw [afterRead]
      split <;> rfl
  | _ => rfl

theorem loop_outcomes (isOpen : Bool) :
    (loop isOpen).2.filterMap SessionAction.outcome? = [] := by
  cases isOpen <;> rfl

/-- A step reads when it is resumed with a read. -/
def ReadsAlong (next : Bool → Point → Resumption → Option (Point × List SessionAction)) : Prop :=
  ∀ isOpen p resumption q actions, next isOpen p resumption = some (q, actions) →
    actions.filterMap SessionAction.outcome? = resumption.outcome?.toList

theorem session_readsAlong : ReadsAlong Session := by
  intro isOpen p resumption q actions h
  unfold Session at h
  split at h
  case h_2 =>
    obtain ⟨-, rfl⟩ := Prod.mk.inj (Option.some.inj h)
    exact loop_outcomes isOpen
  -- only the step after a read notes one
  case h_3 =>
    obtain ⟨-, rfl⟩ := Prod.mk.inj (Option.some.inj h)
    exact afterRead_outcomes _
  case h_7 keepAlive =>
    obtain ⟨-, rfl⟩ := Prod.mk.inj (Option.some.inj h)
    cases keepAlive with
    | true => exact loop_outcomes isOpen
    | false => rfl
  all_goals cases h; try rfl

theorem tlsSession_readsAlong (config : TlsConfig) : ReadsAlong (TlsSession config) := by
  intro isOpen p resumption q actions h
  unfold TlsSession at h
  split at h
  case h_4 =>
    split at h
    · cases h
      rfl
    · obtain ⟨-, rfl⟩ := Prod.mk.inj (Option.some.inj h)
      exact loop_outcomes isOpen
  -- only the step after a read notes one
  case h_5 =>
    obtain ⟨-, rfl⟩ := Prod.mk.inj (Option.some.inj h)
    exact afterRead_outcomes _
  case h_9 keepAlive =>
    obtain ⟨-, rfl⟩ := Prod.mk.inj (Option.some.inj h)
    cases keepAlive with
    | true => exact loop_outcomes isOpen
    | false => rfl
  all_goals cases h; try rfl

/-- What `f` picks from a run, when the resumption decides what it picks from a step. -/
theorem runSession_filterMap {β : Type}
    {next : Bool → Point → Resumption → Option (Point × List SessionAction)}
    {f : SessionAction → Option β} {g : Resumption → Option β}
    (hnext : ∀ isOpen p resumption q actions, next isOpen p resumption = some (q, actions) →
      actions.filterMap f = (g resumption).toList)
    {p q : Point} {inputs : List (Bool × Resumption)} {trace : List SessionAction}
    (h : runSession next p inputs = some (q, trace)) :
    trace.filterMap f = inputs.filterMap fun input => g input.2 := by
  induction inputs generalizing p trace with
  | nil => cases h; rfl
  | cons input rest ih =>
      obtain ⟨p', actions, more, hstep, hrest, rfl⟩ := runSession_cons h
      rw [List.filterMap_append, hnext _ _ _ _ _ hstep, ih hrest, List.filterMap_cons]
      cases g input.2 <;> rfl

theorem runSession_outcomes
    {next : Bool → Point → Resumption → Option (Point × List SessionAction)}
    (hnext : ReadsAlong next) {p q : Point} {inputs : List (Bool × Resumption)}
    {trace : List SessionAction} (h : runSession next p inputs = some (q, trace)) :
    trace.filterMap SessionAction.outcome? = readOutcomes inputs :=
  runSession_filterMap hnext h

/-! ## What a session may do with what it reads -/

/-- What a session should do from the head of its loop on. -/
inductive Proper : List SessionAction → Prop where
  | waiting : Proper []
  | ended : Proper [.unregister]
  | handling (request : Request) : Proper [.read (.complete request), .route request]
  | handlerThrew (request : Request) :
      Proper [.read (.complete request), .route request, .unregister]
  | exchange (request : Request) (response : Response) {rest : List SessionAction} : Proper rest →
      Proper (.read (.complete request) :: .route request :: .write response :: rest)
  | limiting {error : ReadError} (parsed : Request) : error.isLimit = true →
      Proper [.read (.failed error parsed), .refuse (payloadLimitResponse 11)]
  | limited {error : ReadError} (parsed : Request) : error.isLimit = true →
      Proper [.read (.failed error parsed), .refuse (payloadLimitResponse 11), .unregister]
  | failed (error : ReadError) (parsed : Request) :
      Proper [.read (.failed error parsed), .unregister]
  | threw : Proper [.read .threw, .unregister]

/-- If the read failed with a `system_error`, it failed on a limit. -/
def ReadOutcome.sound : ReadOutcome → Bool
  | .failed error _ => error.isLimit
  | _ => true

def SessionAction.sound : SessionAction → Bool
  | .read outcome => outcome.sound
  | _ => true

def OnlyLimits (trace : List SessionAction) : Prop := ∀ action ∈ trace, action.sound = true

section

variable {more : List SessionAction} {request : Request} {response : Response}
  {action : SessionAction}

theorem proper_exchange_iff :
    Proper (.read (.complete request) :: .route request :: .write response :: more) ↔
      Proper more := by
  constructor
  · rintro ⟨⟩
    assumption
  · exact .exchange request response

theorem not_proper_broken {error : ReadError} {parsed : Request} :
    ¬ Proper (.read (.failed error parsed) :: .route parsed :: more) := nofun

theorem onlyLimits_cons (h : action.sound = true) :
    OnlyLimits (action :: more) ↔ OnlyLimits more := by
  rw [OnlyLimits, List.forall_mem_cons, and_iff_right h, OnlyLimits]

theorem onlyLimits_nil : OnlyLimits [] := List.forall_mem_nil _

theorem onlyLimits_unregister : OnlyLimits [.unregister] :=
  (onlyLimits_cons rfl).mpr onlyLimits_nil

end

/-- What the rest of a trace must be, from each point on. -/
def Meets (trace : List SessionAction) : Point → Prop
  | .returned => trace = []
  | .limiting => trace = [] ∨ trace = [.unregister]
  | .handling => ∀ request, Proper (.read (.complete request) :: .route request :: trace) ↔
      OnlyLimits trace
  | _ => Proper trace ↔ OnlyLimits trace

theorem meets_nil (p : Point) : Meets [] p := by
  cases p with
  | returned => exact rfl
  | limiting => exact Or.inl rfl
  | handling => exact fun request => iff_of_true (.handling request) onlyLimits_nil
  | _ => exact iff_of_true .waiting onlyLimits_nil

/-- The points in front of a read. -/
theorem meets_of_proper {trace : List SessionAction} {p : Point}
    (hp : p.beforeLoop = true ∨ p = .reading ∨ ∃ keepAlive, p = .writing keepAlive) :
    Meets trace p ↔ (Proper trace ↔ OnlyLimits trace) := by
  cases p <;> simp [Meets, Point.beforeLoop] at hp ⊢

/-- The step lemma. -/
theorem SessionStep.meets {p q : Point} {actions more : List SessionAction}
    (h : SessionStep p actions q) (hmore : Meets more q) : Meets (actions ++ more) p := by
  cases h with
  | prologue hp hq =>
      rw [List.nil_append, meets_of_proper (Or.inl hp)]
      exact (meets_of_proper (hq.imp_right Or.inl)).mp hmore
  | again => exact hmore
  | full request =>
      refine (hmore request).trans ?_
      rw [List.cons_append, onlyLimits_cons rfl, List.cons_append, onlyLimits_cons rfl,
        List.nil_append]
  | overLimit parsed hlimit =>
      have hsound : SessionAction.sound (.read (.failed _ parsed)) = true := hlimit
      rcases hmore with rfl | rfl
      · refine iff_of_true (.limiting parsed hlimit) ?_
        exact (onlyLimits_cons hsound).mpr ((onlyLimits_cons rfl).mpr onlyLimits_nil)
      · refine iff_of_true (.limited parsed hlimit) ?_
        exact (onlyLimits_cons hsound).mpr ((onlyLimits_cons rfl).mpr onlyLimits_unregister)
  | broken parsed hlimit =>
      refine iff_of_false not_proper_broken fun honly => ?_
      have hsound := honly _ List.mem_cons_self
      rw [SessionAction.sound, ReadOutcome.sound, hlimit] at hsound
      cases hsound
  | threw =>
      obtain rfl : more = [] := hmore
      exact iff_of_true .threw ((onlyLimits_cons rfl).mpr onlyLimits_unregister)
  | respond response keepAlive =>
      intro request
      rw [List.cons_append, List.nil_append, proper_exchange_iff, onlyLimits_cons rfl]
      exact hmore
  | stop hreading hreturned =>
      obtain rfl : more = [] := hmore
      cases p with
      | reading => exact absurd rfl hreading
      | returned => exact absurd rfl hreturned
      | limiting => exact Or.inr rfl
      | handling => exact fun request => iff_of_true (.handlerThrew request) onlyLimits_unregister
      | _ => exact iff_of_true .ended onlyLimits_unregister

/-- The run lemma. -/
theorem SessionSteps.meets {p q : Point} {trace : List SessionAction}
    (h : SessionSteps p trace q) : Meets trace p := by
  induction h with
  | nil p => exact meets_nil p
  | cons hstep _ ih => exact hstep.meets ih

theorem onlyLimits_iff {trace : List SessionAction} :
    OnlyLimits trace ↔
      ∀ outcome ∈ trace.filterMap SessionAction.outcome?, outcome.sound = true := by
  constructor
  · intro honly outcome hmem
    obtain ⟨action, haction, houtcome⟩ := List.mem_filterMap.mp hmem
    cases action with
    | read _ =>
        cases houtcome
        exact honly _ haction
    | _ => cases houtcome
  · intro hall action haction
    cases action with
    | read outcome => exact hall outcome (List.mem_filterMap.mpr ⟨_, haction, rfl⟩)
    | _ => rfl

/-- **A session routes what it fully read and nothing else exactly when no read fails but on a
limit**, over plain TCP and over TLS. -/
theorem routes_full_reads_iff (config : TlsConfig) (inputs : List (Bool × Resumption)) :
    (∀ point trace, runSession Session .spawned inputs = some (point, trace) →
      (Proper trace ↔ ∀ outcome ∈ readOutcomes inputs, outcome.sound = true)) ∧
    ∀ point trace, runSession (TlsSession config) .spawned inputs = some (point, trace) →
      (Proper trace ↔ ∀ outcome ∈ readOutcomes inputs, outcome.sound = true) := by
  constructor
  · intro point trace h
    rw [← runSession_outcomes session_readsAlong h, ← onlyLimits_iff]
    exact (sessionSteps_of_run (fun _ _ _ _ _ => sessionStep_of_session) h).meets
  · intro point trace h
    rw [← runSession_outcomes (tlsSession_readsAlong config) h, ← onlyLimits_iff]
    exact (sessionSteps_of_run (fun _ _ _ _ _ => sessionStep_of_tlsSession) h).meets

/-- A request that is answered, and one that is too large. -/
def twoRequests : List (Bool × Resumption) :=
  [(true, .move), (true, .replaceClose), (true, .read (.complete { method := .get })),
    (true, .handled (some { status := .notFound, version := 11 })), (true, .wrote true),
    (true, .read (.failed .bodyLimit { method := .post })), (true, .wrote true)]

theorem routes_full_reads_twice :
    Proper [.read (.complete { method := .get }), .route { method := .get },
      .write { status := .notFound, version := 11 },
      .read (.failed .bodyLimit { method := .post }), .refuse (payloadLimitResponse 11),
      .unregister] :=
  ((routes_full_reads_iff { } twoRequests).1 .returned _ rfl).mpr (by decide)

/-- A client that connects and sends nothing: the read ends with `end_of_stream`, and the empty
request is routed. -/
theorem empty_request_is_routed :
    ∃ trace, runSession Session .spawned [(true, .move), (true, .replaceClose),
        (true, .read (.failed .endOfStream {}))] = some (.handling, trace) ∧
      SessionAction.route {} ∈ trace ∧ ¬ Proper trace :=
  ⟨_, rfl, by decide, not_proper_broken⟩

end RecipesCore.Net
