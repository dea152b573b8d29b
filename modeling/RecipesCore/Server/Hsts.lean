import RecipesCore.Server.Session

/-!
# HTTPS against HTTP

From the head of its loop on, `TlsSession` does what `Session` does, with the header added to what
the router answers. The limit response is built elsewhere and stays as it is.
-/

namespace RecipesCore.Net

open RecipesCore.Api

/-- The server name of a handshake is not turned away. -/
def TlsConfig.Accepts (config : TlsConfig) (serverName : Option String) : Prop :=
  config.serverName = "" ∨ serverName = some config.serverName

/-- What a TLS session does where a plain one does `action`. -/
def SessionAction.secured (config : TlsConfig) : SessionAction → SessionAction
  | .write response => .write (if config.enableHsts then response.withHsts else response)
  | action => action

section

variable {config : TlsConfig}

theorem loop_secured (isOpen : Bool) :
    (loop isOpen).2.map (.secured config) = (loop isOpen).2 := by
  cases isOpen <;> rfl

theorem afterRead_secured (outcome : ReadOutcome) :
    (afterRead outcome).2.map (.secured config) = (afterRead outcome).2 := by
  cases outcome with
  | failed error parsed =>
      rw [afterRead]
      split <;> rfl
  | _ => rfl

theorem withHsts_keepAlive (response : Response) :
    (if config.enableHsts then response.withHsts else response).keepAlive =
      response.keepAlive := by
  split <;> rfl

/-- The two loops take the same steps. -/
theorem tlsSession_eq {isOpen : Bool} {p : Point} {resumption : Resumption}
    (hp : p.beforeLoop = false) :
    TlsSession config isOpen p resumption =
      (Session isOpen p resumption).map fun (q, actions) =>
        (q, actions.map (.secured config)) := by
  cases p with
  | spawned => cases hp
  | moved => cases hp
  | shaking => cases hp
  | reading =>
      cases resumption with
      | read outcome =>
          simp only [TlsSession, Session, Option.map_some, afterRead_secured]
      | _ => rfl
  | handling =>
      cases resumption with
      | handled response =>
          cases response with
          | none => rfl
          | some response =>
              simp only [TlsSession, Session, Option.map_some, withHsts_keepAlive]
              rfl
      | _ => rfl
  | writing keepAlive =>
      cases resumption with
      | wrote succeeded =>
          cases succeeded with
          | false => rfl
          | true =>
              cases keepAlive with
              | false => rfl
              | true => simp only [TlsSession, Session, Option.map_some, if_true, loop_secured]
      | _ => rfl
  | _ => cases resumption <;> rfl

/-- The prologue is not entered again. -/
theorem SessionStep.afterLoop {p q : Point} {actions : List SessionAction}
    (h : SessionStep p actions q) (hp : p.beforeLoop = false) : q.beforeLoop = false := by
  cases h with
  | prologue hbefore => simp [hp] at hbefore
  | _ => rfl

/-- The run lemma. -/
theorem runSession_secured {p : Point} {inputs : List (Bool × Resumption)}
    (hp : p.beforeLoop = false) :
    runSession (TlsSession config) p inputs =
      (runSession Session p inputs).map fun (q, trace) => (q, trace.map (.secured config)) := by
  induction inputs generalizing p with
  | nil => rfl
  | cons input rest ih =>
      obtain ⟨isOpen, resumption⟩ := input
      rw [runSession, runSession, tlsSession_eq hp]
      cases hstep : Session isOpen p resumption with
      | none => rfl
      | some next =>
          obtain ⟨p', actions⟩ := next
          have hp' : p'.beforeLoop = false := (sessionStep_of_session hstep).afterLoop hp
          simp only [Option.map_some, ih hp', Option.map_map]
          congr 1
          funext result
          obtain ⟨q, trace⟩ := result
          simp

end

/-! ## The whole sessions -/

/-- What a plain session is resumed with. -/
def plainInputs (isOpen : Bool) (inputs : List (Bool × Resumption)) : List (Bool × Resumption) :=
  (isOpen, .move) :: (isOpen, .replaceClose) :: inputs

/-- The same connection over TLS, after a handshake that names the server. -/
def tlsInputs (serverName : Option String) (isOpen : Bool) (inputs : List (Bool × Resumption)) :
    List (Bool × Resumption) :=
  (isOpen, .move) :: (isOpen, .replaceClose) :: (isOpen, .shook (some serverName)) :: inputs

theorem loop_afterLoop (isOpen : Bool) : (loop isOpen).1.beforeLoop = false := by
  cases isOpen <;> rfl

theorem runSession_tlsInputs {config : TlsConfig} {serverName : Option String} {isOpen : Bool}
    {inputs : List (Bool × Resumption)} (haccepts : config.Accepts serverName) :
    runSession (TlsSession config) .spawned (tlsInputs serverName isOpen inputs) =
      (runSession Session .spawned (plainInputs isOpen inputs)).map fun (q, trace) =>
        (q, trace.map (.secured config)) := by
  have haccepted : ¬ (config.serverName ≠ "" ∧ serverName ≠ some config.serverName) :=
    fun h => haccepts.elim h.1 h.2
  have hrest : runSession (TlsSession config) (loop isOpen).1 inputs = _ :=
    runSession_secured (loop_afterLoop isOpen)
  simp only [tlsInputs, plainInputs, runSession, TlsSession, Session, if_neg haccepted, hrest,
    Option.map_map]
  congr 1
  funext result
  obtain ⟨q, trace⟩ := result
  simp [loop_secured]

/-! ## The responses -/

def SessionAction.response? : SessionAction → Option Response
  | .write response => some response
  | .refuse response => some response
  | _ => none

/-- The responses a session writes, in order. -/
def written (trace : List SessionAction) : List Response :=
  trace.filterMap SessionAction.response?

def Response.withoutHsts (response : Response) : Response :=
  { response with strictTransportSecurity := none }

/-- `tls` ends where `plain` ends, after the same responses, and these carry
`Strict-Transport-Security` when the configuration says so. -/
structure HttpPlusHsts (config : TlsConfig) (plain tls : Point × List SessionAction) : Prop where
  sameEnd : tls.1 = plain.1
  sameResponses : (written tls.2).map Response.withoutHsts =
    (written plain.2).map Response.withoutHsts
  header : ∀ response ∈ written tls.2,
    response.strictTransportSecurity.isSome = config.enableHsts

/-- The read failed on a limit. -/
def ReadOutcome.overLimit : ReadOutcome → Bool
  | .failed error _ => error.isLimit
  | _ => false

/-- What a TLS session writes when it is resumed. -/
def Resumption.answer? (config : TlsConfig) : Resumption → Option Response
  | .read outcome => if outcome.overLimit then some (payloadLimitResponse 11) else none
  | .handled response =>
      response.map fun response => if config.enableHsts then response.withHsts else response
  | _ => none

section

variable {config : TlsConfig}

theorem loop_answers (isOpen : Bool) :
    (loop isOpen).2.filterMap (fun action => (action.secured config).response?) = [] := by
  cases isOpen <;> rfl

theorem afterRead_answers (outcome : ReadOutcome) :
    (afterRead outcome).2.filterMap (fun action => (action.secured config).response?) =
      ((Resumption.read outcome).answer? config).toList := by
  cases outcome with
  | failed error parsed =>
      rw [afterRead, Resumption.answer?, ReadOutcome.overLimit]
      split <;> rfl
  | _ => rfl

theorem session_answers (isOpen : Bool) (p : Point) (resumption : Resumption) (q : Point)
    (actions : List SessionAction) (h : Session isOpen p resumption = some (q, actions)) :
    actions.filterMap (fun action => (action.secured config).response?) =
      (resumption.answer? config).toList := by
  unfold Session at h
  split at h
  case h_2 =>
    obtain ⟨-, rfl⟩ := Prod.mk.inj (Option.some.inj h)
    exact loop_answers isOpen
  case h_3 =>
    obtain ⟨-, rfl⟩ := Prod.mk.inj (Option.some.inj h)
    exact afterRead_answers _
  case h_7 keepAlive =>
    obtain ⟨-, rfl⟩ := Prod.mk.inj (Option.some.inj h)
    cases keepAlive with
    | true => exact loop_answers isOpen
    | false => rfl
  all_goals cases h; try rfl

theorem written_secured (trace : List SessionAction) :
    written (trace.map (.secured config)) =
      trace.filterMap fun action => (action.secured config).response? := by
  rw [written, List.filterMap_map]
  rfl

theorem written_secured_withoutHsts (trace : List SessionAction) :
    (written (trace.map (.secured config))).map Response.withoutHsts =
      (written trace).map Response.withoutHsts := by
  rw [written_secured, written, List.map_filterMap, List.map_filterMap]
  congr 1
  funext action
  cases action with
  | write response =>
      simp only [SessionAction.secured, SessionAction.response?]
      split <;> rfl
  | _ => rfl

/-- One resumption: the header is there or not as configured unless a limit error meets
`enable_hsts`. -/
theorem answer_header_iff {resumption : Resumption}
    (hrouter : ∀ response, resumption = .handled (some response) →
      response.strictTransportSecurity = none) :
    (∀ response, resumption.answer? config = some response →
        response.strictTransportSecurity.isSome = config.enableHsts) ↔
      ∀ outcome, resumption.outcome? = some outcome →
        config.enableHsts = true → outcome.overLimit = false := by
  cases resumption with
  | read outcome =>
      cases hlimit : outcome.overLimit <;>
        simp [Resumption.answer?, Resumption.outcome?, hlimit, payloadLimitResponse,
          Response.preparePayload]
  | handled response =>
      refine iff_of_true (fun answer hanswer => ?_) (by simp [Resumption.outcome?])
      simp only [Resumption.answer?] at hanswer
      obtain ⟨response, rfl, rfl⟩ := Option.map_eq_some_iff.mp hanswer
      cases hhsts : config.enableHsts with
      | true => rfl
      | false => simp [hrouter response rfl]
  | _ => simp [Resumption.answer?, Resumption.outcome?]

end

/-- The responses in `inputs` are responses of the router. -/
def FromRouter (glaze : Glaze) (inputs : List (Bool × Resumption)) : Prop :=
  ∀ input ∈ inputs, ∀ response, input.2 = .handled (some response) →
    ∃ request, (Router.handleAsync { glaze } request).MayAnswer response

/-- **HTTPS is HTTP plus HSTS exactly when no read fails on a limit**, or when the header is not
wanted. -/
theorem http_plus_hsts_iff (glaze : Glaze) (config : TlsConfig) (serverName : Option String)
    (isOpen : Bool) (inputs : List (Bool × Resumption)) (plain : Point × List SessionAction)
    (haccepts : config.Accepts serverName) (hrouter : FromRouter glaze inputs)
    (hplain : runSession Session .spawned (plainInputs isOpen inputs) = some plain) :
    ∃ tls, runSession (TlsSession config) .spawned (tlsInputs serverName isOpen inputs) =
        some tls ∧
      (HttpPlusHsts config plain tls ↔
        ∀ outcome ∈ readOutcomes inputs, config.enableHsts = true → outcome.overLimit = false) := by
  obtain ⟨q, trace⟩ := plain
  have htls : runSession (TlsSession config) .spawned (tlsInputs serverName isOpen inputs) =
      some (q, trace.map (.secured config)) := by
    rw [runSession_tlsInputs haccepts, hplain]
    rfl
  refine ⟨_, htls, ?_⟩
  have hanswers : written (trace.map (.secured config)) =
      (plainInputs isOpen inputs).filterMap fun input => input.2.answer? config :=
    (written_secured trace).trans (runSession_filterMap session_answers hplain)
  have hwritten : written (trace.map (.secured config)) =
      inputs.filterMap fun input => input.2.answer? config := by
    rw [hanswers, plainInputs, List.filterMap_cons_none rfl, List.filterMap_cons_none rfl]
  have hheader : (∀ response ∈ written (trace.map (.secured config)),
        response.strictTransportSecurity.isSome = config.enableHsts) ↔
      ∀ outcome ∈ readOutcomes inputs, config.enableHsts = true → outcome.overLimit = false := by
    rw [hwritten, readOutcomes, List.forall_mem_filterMap, List.forall_mem_filterMap]
    refine forall₂_congr fun input hinput => answer_header_iff fun response hresponse => ?_
    obtain ⟨request, hanswer⟩ := hrouter input hinput response hresponse
    exact Router.handleAsync_insecure glaze request response hanswer
  rw [← hheader]
  exact ⟨fun h => h.header, fun h => ⟨rfl, written_secured_withoutHsts trace, h⟩⟩

/-- A request for a resource that does not exist, and its answer. -/
def lastRequest : Request := { method := .get, target := "/v2", keepAlive := false }

def lastResponse : Response := Router.fallback { glaze := Glaze.plain [] [] } lastRequest

theorem http_plus_hsts_once :
    ∃ tls, runSession (TlsSession { enableHsts := true }) .spawned
        (tlsInputs none true [(true, .read (.complete lastRequest)),
          (true, .handled (some lastResponse)), (true, .wrote true)]) = some tls ∧
      HttpPlusHsts { enableHsts := true }
        (.returned, [.read (.complete lastRequest), .route lastRequest, .write lastResponse,
          .unregister]) tls := by
  have hrouter : FromRouter (Glaze.plain [] []) [(true, .read (.complete lastRequest)),
      (true, .handled (some lastResponse)), (true, .wrote true)] := by
    intro input hinput response hresponse
    simp only [List.mem_cons, List.not_mem_nil, or_false] at hinput
    rcases hinput with rfl | rfl | rfl
    · cases hresponse
    · cases hresponse
      exact ⟨lastRequest, rfl⟩
    · cases hresponse
  obtain ⟨tls, hrun, hiff⟩ := http_plus_hsts_iff (Glaze.plain [] []) { enableHsts := true } none
    true _ _ (Or.inl rfl) hrouter rfl
  exact ⟨tls, hrun, hiff.mpr (by decide)⟩

/-- The 413 of a request that is too large has no `Strict-Transport-Security`. -/
theorem limit_response_without_hsts :
    runSession Session .spawned
        (plainInputs true [(true, .read (.failed .headerLimit {})), (true, .wrote true)]) =
      some (.returned, [.read (.failed .headerLimit {}), .refuse (payloadLimitResponse 11),
        .unregister]) ∧
    ∃ tls, runSession (TlsSession { enableHsts := true }) .spawned
        (tlsInputs none true [(true, .read (.failed .headerLimit {})), (true, .wrote true)]) =
          some tls ∧
      ¬ HttpPlusHsts { enableHsts := true }
        (.returned, [.read (.failed .headerLimit {}), .refuse (payloadLimitResponse 11),
          .unregister]) tls := by
  refine ⟨rfl, _, rfl, fun h => ?_⟩
  have hheader := h.header (payloadLimitResponse 11) (List.mem_cons_self ..)
  exact absurd hheader (by decide)

end RecipesCore.Net
