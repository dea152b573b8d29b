import RecipesCore.Logic.Program
import RecipesCore.Server.Lifecycle

/-!
# `Start` and `Stop`, call by call

`Start` opens the listeners and the TLS context one after the other and has a cleanup for every step
that may fail; the acceptors are the same ones in every `Start`. `Server.Lifecycle` looks at a
`Start` that succeeds and at the inside of a `Stop`. Here `Start` runs statement by statement, with
an answer of the system for each step, and `lifecycle_mutex_` makes a call one step of a run.

`startError` reads the result of a `Start` off the configuration and the answers alone. That is all
that `runOn_start_of_stopped` leaves to the state: nothing.
-/

namespace RecipesCore.Net.Startup

open RecipesCore.Logic RecipesCore.Logic.Program

/-! ## Configuration -/

structure ListenerConfig where
  enabled : Bool := false
  address : String := "127.0.0.1"
  port : UInt16 := 0
  deriving DecidableEq, Repr

structure TlsConfig extends Net.TlsConfig where
  certificatePath : String := ""
  privateKeyPath : String := ""
  certificateChainPath : String := ""
  deriving DecidableEq, Repr

structure ServerConfig where
  http : ListenerConfig := { enabled := true, address := "127.0.0.1", port := 8080 }
  https : ListenerConfig := {}
  tls : TlsConfig := {}
  networkThreads : Nat := 1
  deriving DecidableEq, Repr

/-! ## The system -/

/-- What `make_address` makes of a text. -/
structure Address where
  isV6 : Bool := false
  text : String
  deriving DecidableEq, Repr

/-- How the system answers one `ConfigureListener`, with the message of every error. -/
structure ListenerAnswers where
  makeAddress : String → Except String Address := fun text => .ok { text }
  openError : Option String := none
  setOptionError : Option String := none
  bindError : Option String := none
  listenError : Option String := none

/-- How OpenSSL answers one `ConfigureTls`. -/
structure TlsAnswers where
  setOptionsError : Option String := none
  certificateError : Option String := none
  privateKeyError : Option String := none
  privateKeyMatches : Bool := true
  verifyFileError : Option String := none
  deriving DecidableEq, Repr

structure Answers where
  http : ListenerAnswers := {}
  https : ListenerAnswers := {}
  tls : TlsAnswers := {}

/-- A call of the system that may fail. -/
def answered {σ : Type} (error : Option String) (effect : σ → σ) : Prog σ String Unit :=
  match error with
  | some message => throw message
  | none => modify effect

/-- `Tcp::acceptor`. -/
structure Acceptor where
  isOpen : Bool := false
  isV6 : Bool := false
  reuseAddress : Bool := false
  endpoint : Option (Address × UInt16) := none
  listening : Bool := false
  deriving DecidableEq, Repr

namespace Acceptor

/-- An acceptor that is open already refuses. -/
def openAs (isV6 : Bool) (error : Option String) : Prog Acceptor String Unit := do
  let acceptor ← get
  if acceptor.isOpen then throw "Already open"
  else answered error fun acceptor => { acceptor with isOpen := true, isV6 }

/-- `close` gives the socket back also when it reports an error, and does nothing to an acceptor
that is not open. -/
def close (_ : Acceptor) : Acceptor := {}

/-- The port, when `local_endpoint` answers with one. -/
def localPort (acceptor : Acceptor) (localEndpoint : Option UInt16) : UInt16 :=
  if !acceptor.isOpen then 0 else localEndpoint.getD 0

end Acceptor

/-- `ssl::context`. -/
structure TlsContext where
  /-- Old protocols are off. -/
  options : Bool := false
  certificate : Option String := none
  privateKey : Option String := none
  verifyFile : Option String := none
  deriving DecidableEq, Repr

structure Server where
  started : Bool := false
  acceptor : Acceptor := {}
  httpsAcceptor : Acceptor := {}
  tlsContext : TlsContext := {}
  /-- `io_context_` is stopped. -/
  contextStopped : Bool := false
  /-- The size of `workers_`. -/
  workers : Nat := 0
  deriving DecidableEq, Repr

/-! ## Calls -/

def configureListener (config : ListenerConfig) (protocol : String) (answers : ListenerAnswers) :
    Prog Acceptor String Unit :=
  match answers.makeAddress config.address with
  | .error message => throw ("Invalid " ++ protocol ++ " address: " ++ message)
  | .ok address =>
      tryCatch
        (do
          Acceptor.openAs address.isV6 answers.openError
          answered answers.setOptionError fun acceptor => { acceptor with reuseAddress := true }
          answered answers.bindError fun acceptor =>
            { acceptor with endpoint := some (address, config.port) }
          answered answers.listenError fun acceptor => { acceptor with listening := true })
        fun message => do
          modify Acceptor.close
          throw ("Failed to start " ++ protocol ++ " listener: " ++ message)

/-- The `try` block of `ConfigureTls`, which may also return an error. -/
def loadTls (config : TlsConfig) (answers : TlsAnswers) :
    Prog TlsContext String (Except String Unit) := do
  answered answers.setOptionsError fun tls => { tls with options := true }
  answered answers.certificateError fun tls =>
    { tls with certificate := some config.certificatePath }
  answered answers.privateKeyError fun tls => { tls with privateKey := some config.privateKeyPath }
  if !answers.privateKeyMatches then
    return .error "TLS private key does not match certificate"
  if config.certificateChainPath ≠ "" then
    answered answers.verifyFileError fun tls =>
      { tls with verifyFile := some config.certificateChainPath }
  return .ok ()

def configureTls (config : TlsConfig) (answers : TlsAnswers) : Prog TlsContext String Unit :=
  if config.certificatePath = "" ∨ config.privateKeyPath = "" then
    throw "HTTPS requires certificate and private key paths"
  else do
    let result ← tryCatch (loadTls config answers) fun what =>
      return .error ("Failed to configure TLS: " ++ what)
    match result with
    | .error message => throw message
    | .ok () => pure ()

namespace Server

def closeAcceptor (s : Server) : Server := { s with acceptor := s.acceptor.close }

def closeHttpsAcceptor (s : Server) : Server := { s with httpsAcceptor := s.httpsAcceptor.close }

def onAcceptor (m : Prog Acceptor String Unit) : Prog Server String Unit :=
  onPart acceptor (fun acceptor s => { s with acceptor }) m

def onHttpsAcceptor (m : Prog Acceptor String Unit) : Prog Server String Unit :=
  onPart httpsAcceptor (fun httpsAcceptor s => { s with httpsAcceptor }) m

def onTlsContext (m : Prog TlsContext String Unit) : Prog Server String Unit :=
  onPart tlsContext (fun tlsContext s => { s with tlsContext }) m

/-- The first part of `Start`. A listener that fails has closed its acceptor itself. -/
def startHttp (config : ServerConfig) (answers : Answers) : Prog Server String Unit :=
  if config.http.enabled then onAcceptor (configureListener config.http "HTTP" answers.http)
  else pure ()

def startHttps (config : ServerConfig) (answers : Answers) : Prog Server String Unit :=
  if config.https.enabled then do
    tryCatch (onTlsContext (configureTls config.tls answers.tls)) fun message => do
      modify closeAcceptor
      throw message
    tryCatch (onHttpsAcceptor (configureListener config.https "HTTPS" answers.https))
      fun message => do
        modify closeHttpsAcceptor
        modify closeAcceptor
        throw message
  else pure ()

/-- The accept loops that are spawned are in `Server.Lifecycle`. -/
def start (config : ServerConfig) (answers : Answers) : Prog Server String Unit := do
  let s ← get
  if s.started then throw "Server is already started"
  else if !config.http.enabled && !config.https.enabled then
    throw "At least one listener must be enabled"
  else do
    startHttp config answers
    startHttps config answers
    modify fun s => { s with contextStopped := false }
    modify fun s => { s with started := true }
    modify fun s => { s with workers := s.workers + max 1 config.networkThreads }

/-- Without the sessions, which are in `Server.Lifecycle`. -/
def stop (s : Server) : Server :=
  if s.started then
    { ({ s with started := false } : Server).closeAcceptor.closeHttpsAcceptor with
      contextStopped := true, workers := 0 }
  else s

def httpPort (s : Server) : Option UInt16 → UInt16 := s.acceptor.localPort

def httpsPort (s : Server) : Option UInt16 → UInt16 := s.httpsAcceptor.localPort

end Server

/-! ## What decides the result -/

def listenerError (config : ListenerConfig) (protocol : String) (answers : ListenerAnswers) :
    Option String :=
  match answers.makeAddress config.address with
  | .error message => some ("Invalid " ++ protocol ++ " address: " ++ message)
  | .ok _ =>
      let error := answers.openError.or <| answers.setOptionError.or <|
        answers.bindError.or answers.listenError
      error.map fun message => "Failed to start " ++ protocol ++ " listener: " ++ message

def tlsError (config : TlsConfig) (answers : TlsAnswers) : Option String :=
  if config.certificatePath = "" ∨ config.privateKeyPath = "" then
    some "HTTPS requires certificate and private key paths"
  else
    match answers.setOptionsError.or (answers.certificateError.or answers.privateKeyError) with
    | some what => some ("Failed to configure TLS: " ++ what)
    | none =>
        if !answers.privateKeyMatches then some "TLS private key does not match certificate"
        else if config.certificateChainPath ≠ "" then
          answers.verifyFileError.map ("Failed to configure TLS: " ++ ·)
        else none

def httpError (config : ServerConfig) (answers : Answers) : Option String :=
  if config.http.enabled then listenerError config.http "HTTP" answers.http else none

def httpsError (config : ServerConfig) (answers : Answers) : Option String :=
  if config.https.enabled then
    (tlsError config.tls answers.tls).or (listenerError config.https "HTTPS" answers.https)
  else none

/-- The first step that fails, on a server that is not started. -/
def startError (config : ServerConfig) (answers : Answers) : Option String :=
  if !config.http.enabled && !config.https.enabled then
    some "At least one listener must be enabled"
  else (httpError config answers).or (httpsError config answers)

/-- The acceptor of a listener after its steps. -/
def listening (config : ListenerConfig) (answers : ListenerAnswers) : Acceptor :=
  match config.enabled, answers.makeAddress config.address with
  | true, .ok address =>
      { isOpen := true, isV6 := address.isV6, reuseAddress := true
        endpoint := some (address, config.port), listening := true }
  | _, _ => {}

/-- The context after its steps. -/
def loaded (config : ServerConfig) : TlsContext :=
  if config.https.enabled then
    { options := true
      certificate := some config.tls.certificatePath
      privateKey := some config.tls.privateKeyPath
      verifyFile :=
        if config.tls.certificateChainPath ≠ "" then some config.tls.certificateChainPath
        else none }
  else {}

/-- The server after a `Start` that succeeds. -/
def running (config : ServerConfig) (answers : Answers) : Server where
  started := true
  acceptor := listening config.http answers.http
  httpsAcceptor := listening config.https answers.https
  tlsContext := loaded config
  contextStopped := false
  workers := max 1 config.networkThreads

def outcome (error : Option String) : Except String Unit :=
  match error with
  | some message => .error message
  | none => .ok ()

/-- What a context keeps over its steps and from one `Start` to the next. -/
structure Within (config : ServerConfig) (tls : TlsContext) : Prop where
  disabled : config.https.enabled = false → tls = {}
  chain : config.tls.certificateChainPath = "" → tls.verifyFile = none

/-- Nothing is open, and no worker is there. -/
structure Stopped (config : ServerConfig) (s : Server) : Prop where
  started : s.started = false
  acceptor : s.acceptor = {}
  httpsAcceptor : s.httpsAcceptor = {}
  workers : s.workers = 0
  tlsContext : Within config s.tlsContext

section

variable {config : ServerConfig} {answers : Answers} {s : Server}

@[simp] theorem runOn_answered {σ : Type} (error : Option String) (effect : σ → σ) (s : σ) :
    runOn (answered error effect) s =
      match error with
      | some message => (.error message, s)
      | none => (.ok (), effect s) := by
  cases error <;> rfl

/-- A closed acceptor ends up listening, or closed again. -/
theorem runOn_configureListener {config : ListenerConfig} {protocol : String}
    {answers : ListenerAnswers} (henabled : config.enabled = true) :
    runOn (configureListener config protocol answers) {} =
      match listenerError config protocol answers with
      | some message => (.error message, {})
      | none => (.ok (), listening config answers) := by
  unfold configureListener listenerError listening
  cases answers.makeAddress config.address with
  | error message => rfl
  | ok address =>
      rw [henabled]
      simp only [runOn_tryCatch, runOn_bind, Acceptor.openAs, runOn_get, runOn_answered]
      cases answers.openError with
      | some message => rfl
      | none =>
          cases answers.setOptionError with
          | some message => rfl
          | none =>
              cases answers.bindError with
              | some message => rfl
              | none => cases answers.listenError <;> rfl

/-- Loading stops at its first error, with what was loaded before it. -/
theorem runOn_configureTls (answers : Answers) (henabled : config.https.enabled = true)
    {tls : TlsContext} (htls : Within config tls) : ∃ tls', Within config tls' ∧
      runOn (configureTls config.tls answers.tls) tls =
        (outcome (tlsError config.tls answers.tls), tls') ∧
      (tlsError config.tls answers.tls = none → tls' = loaded config) := by
  have hwithin {tls' : TlsContext}
      (hchain : config.tls.certificateChainPath = "" → tls'.verifyFile = none) :
      Within config tls' := ⟨fun hdisabled => by simp [henabled] at hdisabled, hchain⟩
  unfold configureTls tlsError loaded
  by_cases hpaths : config.tls.certificatePath = "" ∨ config.tls.privateKeyPath = ""
  · rw [if_pos hpaths, if_pos hpaths]
    exact ⟨tls, htls, rfl, nofun⟩
  rw [if_neg hpaths, if_neg hpaths, if_pos henabled]
  simp only [runOn_tryCatch, runOn_bind, loadTls, runOn_answered]
  cases answers.tls.setOptionsError with
  | some what => exact ⟨_, htls, rfl, nofun⟩
  | none =>
  cases answers.tls.certificateError with
  | some what =>
      refine ⟨_, ?_, rfl, nofun⟩
      exact hwithin htls.chain
  | none =>
  cases answers.tls.privateKeyError with
  | some what =>
      refine ⟨_, ?_, rfl, nofun⟩
      exact hwithin htls.chain
  | none =>
  cases answers.tls.privateKeyMatches with
  | false =>
      refine ⟨_, ?_, rfl, nofun⟩
      exact hwithin htls.chain
  | true =>
  by_cases hchain : config.tls.certificateChainPath = ""
  · -- Without a chain the verify file is what it was, which is none.
    have hskip : ¬ config.tls.certificateChainPath ≠ "" := not_not.mpr hchain
    simp only [if_neg hskip]
    refine ⟨_, ?_, rfl, fun _ => ?_⟩
    · exact hwithin htls.chain
    · show TlsContext.mk true (some _) (some _) tls.verifyFile = _
      rw [htls.chain hchain]
  · simp only [if_pos hchain]
    cases answers.tls.verifyFileError with
    | some what =>
        refine ⟨_, ?_, rfl, nofun⟩
        exact hwithin htls.chain
    | none =>
        refine ⟨_, ?_, rfl, fun _ => rfl⟩
        exact hwithin fun h => absurd h hchain

theorem listening_of_disabled {config : ListenerConfig} {answers : ListenerAnswers}
    (h : config.enabled ≠ true) : listening config answers = {} := by
  unfold listening
  rw [Bool.eq_false_of_not_eq_true h]

/-- A listener is configured on its own acceptor: when that fails the server is what it was. -/
theorem runOn_onPart_listener {config : ListenerConfig} {protocol : String}
    {answers : ListenerAnswers} {part : Server → Acceptor} {put : Acceptor → Server → Server}
    (hput : put (part s) s = s) (hclosed : part s = {}) (henabled : config.enabled = true) :
    runOn (onPart part put (configureListener config protocol answers)) s =
      match listenerError config protocol answers with
      | some message => (.error message, s)
      | none => (.ok (), put (listening config answers) s) := by
  rw [runOn_onPart, hclosed, runOn_configureListener henabled]
  cases listenerError config protocol answers with
  | some message =>
      show (_, put {} s) = _
      rw [← hclosed, hput]
  | none => rfl

theorem runOn_startHttp (hclosed : s.acceptor = {}) :
    runOn (Server.startHttp config answers) s =
      match httpError config answers with
      | some message => (.error message, s)
      | none => (.ok (), { s with acceptor := listening config.http answers.http }) := by
  unfold Server.startHttp httpError
  by_cases henabled : config.http.enabled = true
  · rw [if_pos henabled, if_pos henabled]
    exact runOn_onPart_listener rfl hclosed henabled
  · rw [if_neg henabled, if_neg henabled, listening_of_disabled henabled, ← hclosed]
    rfl

/-- Whichever of the two HTTPS steps fails, both acceptors are closed. -/
theorem runOn_startHttps (answers : Answers) (hclosed : s.httpsAcceptor = {})
    (htls : Within config s.tlsContext) :
    ∃ tls, Within config tls ∧ runOn (Server.startHttps config answers) s =
      match httpsError config answers with
      | some message => (.error message, { s with acceptor := {}, tlsContext := tls })
      | none =>
          (.ok (), { s with
            httpsAcceptor := listening config.https answers.https
            tlsContext := loaded config }) := by
  unfold Server.startHttps httpsError
  by_cases henabled : config.https.enabled = true
  · rw [if_pos henabled, if_pos henabled]
    obtain ⟨tls, hwithin, hrun, hloaded⟩ := runOn_configureTls answers henabled htls
    refine ⟨tls, hwithin, ?_⟩
    have htlsRun : runOn (Server.onTlsContext (configureTls config.tls answers.tls)) s =
        (outcome (tlsError config.tls answers.tls), { s with tlsContext := tls }) := by
      rw [Server.onTlsContext, runOn_onPart, hrun]
    rw [runOn_bind, runOn_tryCatch, htlsRun]
    cases herror : tlsError config.tls answers.tls with
    | some message => rfl
    | none =>
        show runOn (tryCatch (Server.onHttpsAcceptor _) _) { s with tlsContext := tls } = _
        rw [runOn_tryCatch, Server.onHttpsAcceptor,
          runOn_onPart_listener (s := { s with tlsContext := tls }) rfl hclosed henabled,
          hloaded herror]
        cases listenerError config.https "HTTPS" answers.https with
        | some message =>
            show (_, { s with
              acceptor := {}, httpsAcceptor := {}, tlsContext := loaded config }) = _
            rw [← hclosed]
            rfl
        | none => rfl
  · rw [if_neg henabled, if_neg henabled, listening_of_disabled henabled, ← hclosed]
    have hloaded : loaded config = {} := if_neg henabled
    rw [hloaded, ← htls.disabled (Bool.eq_false_of_not_eq_true henabled)]
    exact ⟨s.tlsContext, htls, rfl⟩

/-- **A `Start` on a stopped server** does what the configuration and the answers say. When it fails
the server is stopped again, but for what the TLS context has loaded. -/
theorem runOn_start_of_stopped (answers : Answers) (hs : Stopped config s) :
    ∃ tls, Within config tls ∧ runOn (Server.start config answers) s =
      match startError config answers with
      | some message => (.error message, { s with tlsContext := tls })
      | none => (.ok (), running config answers) := by
  unfold Server.start startError
  rw [runOn_bind, runOn_get]
  show ∃ tls, Within config tls ∧ runOn (if s.started then _ else _) s = _
  rw [if_neg (by simp [hs.started])]
  split
  · exact ⟨s.tlsContext, hs.tlsContext, rfl⟩
  · rw [runOn_bind, runOn_startHttp hs.acceptor]
    cases httpError config answers with
    | some message => exact ⟨s.tlsContext, hs.tlsContext, rfl⟩
    | none =>
        obtain ⟨tls, hwithin, hrun⟩ := runOn_startHttps answers
          (s := { s with acceptor := listening config.http answers.http }) hs.httpsAcceptor
          hs.tlsContext
        refine ⟨tls, hwithin, ?_⟩
        show runOn (_ >>= _) { s with acceptor := listening config.http answers.http } = _
        rw [runOn_bind, hrun]
        cases httpsError config answers with
        | some message =>
            show (_, { s with acceptor := {}, tlsContext := tls }) = _
            rw [← hs.acceptor]
            rfl
        | none =>
            -- The workers of the last `Start` are gone.
            show (Except.ok (), { running config answers with
              workers := s.workers + max 1 config.networkThreads }) = _
            rw [hs.workers, Nat.zero_add]
            rfl

theorem runOn_start_of_started (h : s.started = true) :
    runOn (Server.start config answers) s = (.error "Server is already started", s) := by
  unfold Server.start
  rw [runOn_bind, runOn_get]
  show runOn (if s.started then _ else _) s = _
  rw [if_pos h]
  rfl

theorem loaded_within : Within config (loaded config) := by
  unfold loaded
  constructor
  · intro hdisabled
    simp [hdisabled]
  · intro hchain
    split
    · simp [hchain]
    · rfl

theorem listening_isOpen {config : ListenerConfig} {protocol : String} {answers : ListenerAnswers}
    (h : config.enabled = true → listenerError config protocol answers = none) :
    (listening config answers).isOpen = config.enabled := by
  cases henabled : config.enabled with
  | false =>
      rw [listening_of_disabled (by simp [henabled])]
  | true =>
      have hnone := h henabled
      unfold listenerError at hnone
      unfold listening
      rw [henabled]
      cases haddress : answers.makeAddress config.address with
      | error message => simp [haddress] at hnone
      | ok address => rfl

/-- A `Start` that succeeds leaves exactly the enabled listeners open. -/
theorem running_isOpen (h : startError config answers = none) :
    (running config answers).acceptor.isOpen = config.http.enabled ∧
      (running config answers).httpsAcceptor.isOpen = config.https.enabled := by
  unfold startError httpError httpsError at h
  split at h
  · cases h
  obtain ⟨hhttp, hhttps⟩ := Option.or_eq_none_iff.mp h
  constructor
  · apply listening_isOpen
    intro henabled
    rwa [if_pos henabled] at hhttp
  · apply listening_isOpen
    intro henabled
    rw [if_pos henabled] at hhttps
    exact (Option.or_eq_none_iff.mp hhttps).2

end

/-! ## Runs -/

inductive Call where
  | start (answers : Answers)
  | stop

/-- What has come of a call. -/
inductive Result where
  | start (result : Except String Unit)
  /-- `started_` was set, so there was something to stop. -/
  | stop (wasStarted : Bool)

/-- The call has done what it is for. -/
def Result.effective : Result → Bool
  | .start (.ok ()) => true
  | .start (.error _) => false
  | .stop wasStarted => wasStarted

/-- A server and the results of its calls, the last one first. -/
structure History where
  server : Server := {}
  results : List Result := []

namespace History

def call (config : ServerConfig) (past : History) : Call → History
  | .start answers =>
      let (result, server) := runOn (Server.start config answers) past.server
      { server, results := .start result :: past.results }
  | .stop => { server := past.server.stop, results := .stop past.server.started :: past.results }

def calls (config : ServerConfig) : History → List Call → History := List.foldl (call config)

def runs (config : ServerConfig) : System History Call where
  init past := past = {}
  step past next past' := past' = past.call config next

def lastEffective (past : History) : Option Result := past.results.find? Result.effective

/-- A server is what its last effective call has made of it. -/
structure Consistent (config : ServerConfig) (past : History) : Prop where
  started : past.server.started = true ↔ past.lastEffective = some (.start (.ok ()))
  running : past.server.started = true →
    ∃ answers, startError config answers = none ∧ past.server = running config answers
  stopped : past.server.started = false → Stopped config past.server

end History

section

variable {config : ServerConfig} {answers : Answers} {s s' : Server} {past : History}

theorem stopped_init : Stopped config {} where
  started := rfl
  acceptor := rfl
  httpsAcceptor := rfl
  workers := rfl
  tlsContext := ⟨fun _ => rfl, fun _ => rfl⟩

/-- A `Start` that fails on a stopped server has closed what it had opened. -/
theorem Stopped.start_error (hs : Stopped config s) {message : String}
    (h : startError config answers = some message) :
    ∃ s', Stopped config s' ∧ runOn (Server.start config answers) s = (.error message, s') := by
  obtain ⟨tls, hwithin, hrun⟩ := runOn_start_of_stopped answers hs
  rw [h] at hrun
  refine ⟨_, ?_, hrun⟩
  exact ⟨hs.started, hs.acceptor, hs.httpsAcceptor, hs.workers, hwithin⟩

theorem Stopped.start_ok (hs : Stopped config s) (h : startError config answers = none) :
    runOn (Server.start config answers) s = (.ok (), running config answers) := by
  obtain ⟨tls, -, hrun⟩ := runOn_start_of_stopped answers hs
  rw [hrun, h]

/-- A server that is not started has no port, whatever the last `Start` had come to. -/
theorem Stopped.ports (hs : Stopped config s) (localEndpoint : Option UInt16) :
    s.httpPort localEndpoint = 0 ∧ s.httpsPort localEndpoint = 0 := by
  unfold Server.httpPort Server.httpsPort
  rw [hs.acceptor, hs.httpsAcceptor]
  exact ⟨rfl, rfl⟩

theorem stop_running : Stopped config (running config answers).stop where
  started := rfl
  acceptor := rfl
  httpsAcceptor := rfl
  workers := rfl
  tlsContext := loaded_within

theorem stop_of_stopped (h : s.started = false) : s.stop = s := by
  unfold Server.stop
  rw [if_neg (by simp [h])]

namespace History

theorem consistent_init : Consistent config {} where
  started := by simp [lastEffective]
  running := nofun
  stopped _ := stopped_init

theorem call_start {result : Except String Unit}
    (h : runOn (Server.start config answers) past.server = (result, s)) :
    past.call config (.start answers) =
      { server := s, results := .start result :: past.results } := by
  simp only [call, h]

theorem lastEffective_of_not_effective {result : Result} (h : result.effective = false) :
    lastEffective { server := s, results := result :: past.results } = past.lastEffective :=
  List.find?_cons_of_neg (by simp [h])

theorem Consistent.call_start (hpast : Consistent config past) (answers : Answers) :
    Consistent config (past.call config (.start answers)) := by
  cases hstarted : past.server.started with
  | true =>
      -- The error does not count, and the server is what it was.
      rw [History.call_start (runOn_start_of_started hstarted)]
      refine ⟨?_, hpast.running, hpast.stopped⟩
      rw [lastEffective_of_not_effective rfl]
      exact hpast.started
  | false =>
      have hs := hpast.stopped hstarted
      cases herror : startError config answers with
      | some message =>
          obtain ⟨s, hstopped, hrun⟩ := hs.start_error herror
          rw [History.call_start hrun]
          refine ⟨?_, fun h => ?_, fun _ => hstopped⟩
          · rw [lastEffective_of_not_effective rfl, ← hpast.started, hstarted]
            show s.started = true ↔ _
            rw [hstopped.started]
          · rw [hstopped.started] at h
            cases h
      | none =>
          rw [History.call_start (hs.start_ok herror)]
          exact ⟨iff_of_true rfl rfl, fun _ => ⟨answers, herror, rfl⟩, nofun⟩

theorem Consistent.call_stop (hpast : Consistent config past) :
    Consistent config (past.call config .stop) := by
  cases hstarted : past.server.started with
  | true =>
      obtain ⟨answers, -, hserver⟩ := hpast.running hstarted
      have hstopped : Stopped config past.server.stop := by
        rw [hserver]
        exact stop_running
      refine ⟨?_, fun h => ?_, fun _ => hstopped⟩
      · refine iff_of_false (by simp [call, hstopped.started]) ?_
        rw [lastEffective, call, hstarted, List.find?_cons_of_pos rfl]
        nofun
      · rw [show (past.call config .stop).server = past.server.stop from rfl,
          hstopped.started] at h
        cases h
  | false =>
      have hcall : past.call config .stop =
          { server := past.server, results := .stop false :: past.results } := by
        rw [call, stop_of_stopped hstarted, hstarted]
      rw [hcall]
      refine ⟨?_, hpast.running, hpast.stopped⟩
      rw [lastEffective_of_not_effective rfl]
      exact hpast.started

theorem consistent_of_reachable (h : (runs config).Reachable past) : Consistent config past := by
  apply h.invariant
  · intro past hinit
    rw [show past = {} from hinit]
    exact consistent_init
  · intro past next past' hpast hstep
    rw [show past' = past.call config next from hstep]
    cases next with
    | start answers => exact hpast.call_start answers
    | stop => exact hpast.call_stop

/-! ## After a failure -/

/-- No call tells the two servers apart. -/
structure Alike (config : ServerConfig) (past past' : History) : Prop where
  results : past.results = past'.results
  server : past.server = past'.server ∨
    Stopped config past.server ∧ Stopped config past'.server

theorem alike_call {past' : History} (h : Alike config past past') (next : Call) :
    Alike config (past.call config next) (past'.call config next) := by
  obtain ⟨hresults, hserver | ⟨hs, hs'⟩⟩ := h
  · rw [show past = past' by cases past; cases past'; cases hresults; cases hserver; rfl]
    exact ⟨rfl, .inl rfl⟩
  cases next with
  | start answers =>
      cases herror : startError config answers with
      | some message =>
          obtain ⟨s, hstopped, hrun⟩ := hs.start_error herror
          obtain ⟨s', hstopped', hrun'⟩ := hs'.start_error herror
          rw [call_start hrun, call_start hrun', hresults]
          exact ⟨rfl, .inr ⟨hstopped, hstopped'⟩⟩
      | none =>
          rw [call_start (hs.start_ok herror), call_start (hs'.start_ok herror), hresults]
          exact ⟨rfl, .inl rfl⟩
  | stop =>
      unfold call
      rw [stop_of_stopped hs.started, stop_of_stopped hs'.started, hs.started, hs'.started,
        hresults]
      exact ⟨rfl, .inr ⟨hs, hs'⟩⟩

theorem alike_calls {past' : History} (h : Alike config past past') (later : List Call) :
    Alike config (past.calls config later) (past'.calls config later) := by
  apply List.foldl_rel h
  intro next _ past past' h
  exact alike_call h next

end History

open History

/-- **A server is what its last effective call has made of it**, whatever failed before. A `Start`
that fails on a stopped server leaves it stopped, and no later call gives another result than it
would have given without it. -/
theorem start_stop_consistent (h : (History.runs config).Reachable past) :
    (past.server.started = true ↔ past.lastEffective = some (.start (.ok ()))) ∧
    (past.server.started = true →
      past.server.acceptor.isOpen = config.http.enabled ∧
      past.server.httpsAcceptor.isOpen = config.https.enabled ∧
      past.server.workers = max 1 config.networkThreads) ∧
    (past.server.started = false →
      past.server.acceptor = {} ∧ past.server.httpsAcceptor = {} ∧ past.server.workers = 0) ∧
    (past.server.started = false → ∀ answers message s,
      runOn (Server.start config answers) past.server = (.error message, s) →
      s.started = false ∧ s.acceptor = {} ∧ s.httpsAcceptor = {} ∧ s.workers = 0 ∧
      ∀ later : List Call, Alike config ({ past with server := s }.calls config later)
        (past.calls config later)) ∧
    (past.server.started = true → ∀ answers,
      runOn (Server.start config answers) past.server =
        (.error "Server is already started", past.server)) := by
  have hpast := consistent_of_reachable h
  refine ⟨hpast.started, fun hstarted => ?_, fun hstarted => ?_, fun hstarted => ?_,
    fun hstarted answers => runOn_start_of_started hstarted⟩
  · obtain ⟨answers, herror, hserver⟩ := hpast.running hstarted
    rw [hserver]
    obtain ⟨hhttp, hhttps⟩ := running_isOpen herror
    exact ⟨hhttp, hhttps, rfl⟩
  · have hs := hpast.stopped hstarted
    exact ⟨hs.acceptor, hs.httpsAcceptor, hs.workers⟩
  · intro answers message s hrun
    have hs := hpast.stopped hstarted
    have hstopped : Stopped config s := by
      cases herror : startError config answers with
      | some message =>
          obtain ⟨s', hstopped, hrun'⟩ := hs.start_error herror
          rw [hrun] at hrun'
          cases hrun'
          exact hstopped
      | none =>
          rw [hs.start_ok herror] at hrun
          cases hrun
    refine ⟨hstopped.started, hstopped.acceptor, hstopped.httpsAcceptor, hstopped.workers, ?_⟩
    intro later
    apply alike_calls
    exact ⟨rfl, .inr ⟨hstopped, hs⟩⟩

end

/-- Both listeners, with two workers. -/
def bothListeners : ServerConfig where
  https := { enabled := true, port := 8443 }
  tls := { certificatePath := "server.crt", privateKeyPath := "server.key" }
  networkThreads := 2

/-- The HTTPS port is taken at first. -/
theorem start_stop_consistent_retry :
    let past := ({} : History).calls bothListeners
      [.start { https := { bindError := some "Address already in use" } }, .start {}]
    past.lastEffective = some (.start (.ok ())) ∧ past.server.started = true ∧
      past.server.acceptor.isOpen = true ∧ past.server.httpsAcceptor.isOpen = true ∧
      past.server.workers = 2 := by
  intro past
  have hreachable : (History.runs bothListeners).Reachable past :=
    .of_fold (.init rfl) _ fun _ _ _ => rfl
  have hstarted : past.server.started = true := by decide +kernel
  obtain ⟨hlast, hrunning, -⟩ := start_stop_consistent hreachable
  exact ⟨hlast.mp hstarted, hstarted, hrunning hstarted⟩

/-! ## In every interleaving -/

/-- What a session looks at. -/
def ServerConfig.lifecycle (config : ServerConfig) : Net.ServerConfig where
  http := config.http.enabled
  https := config.https.enabled
  tls := config.tls.toTlsConfig

/-- The two models of a server show the same. -/
structure Shows (s : Server) (t : Net.Server) : Prop where
  started : t.started = s.started
  acceptor : t.acceptor = s.acceptor.isOpen
  httpsAcceptor : t.httpsAcceptor = s.httpsAcceptor.isOpen

section

variable {config : ServerConfig} {answers : Answers} {s : Server} {t t' : Net.Server}

/-- The `Start` of `Server.Lifecycle` is a `Start` that succeeds; one that fails shows nothing. -/
theorem start_refines (hs : Stopped config s) (hshows : Shows s t)
    (hphase : t.phase = .idle ∨ t.working = false) :
    match startError config answers with
    | some _ => Shows (runOn (Server.start config answers) s).2 t
    | none => ∃ t', t.nextStart config.lifecycle = some t' ∧
        Shows (runOn (Server.start config answers) s).2 t' := by
  cases herror : startError config answers with
  | some message =>
      obtain ⟨tls, -, hrun⟩ := runOn_start_of_stopped answers hs
      rw [hrun, herror]
      exact ⟨hshows.started, hshows.acceptor, hshows.httpsAcceptor⟩
  | none =>
      obtain ⟨hhttp, hhttps⟩ := running_isOpen herror
      rw [hs.start_ok herror]
      have hready : ¬ (t.started = true ∨ (t.phase ≠ .idle ∧ t.working = true) ∨
          (¬ config.http.enabled = true ∧ ¬ config.https.enabled = true)) := by
        rintro (hstarted | ⟨hbusy, hworking⟩ | ⟨hhttp, hhttps⟩)
        · rw [hshows.started, hs.started] at hstarted
          cases hstarted
        · obtain hidle | hreturned := hphase
          · exact hbusy hidle
          · rw [hreturned] at hworking
            cases hworking
        · simp [startError, hhttp, hhttps] at herror
      refine ⟨_, if_neg hready, rfl, ?_, ?_⟩
      · exact hhttp.symm
      · exact hhttps.symm

/-- What a `Stop` has cleared and closed so far. -/
structure Closing (t : Net.Server) : Prop where
  started : t.phase ≠ .idle → t.started = false
  closed : ∀ tls, t.phase.closed tls = true → t.isOpen tls = false

/-- Only `Start` and `Stop` touch the flag and the acceptors. -/
theorem next_frame {config : Net.ServerConfig} {event : ServerEvent}
    (h : t.next config event = some t') :
    event = .start ∨ (∃ stop, event = .stop stop) ∨
      (t'.phase = t.phase ∧ t'.started = t.started ∧ t'.acceptor = t.acceptor ∧
        t'.httpsAcceptor = t.httpsAcceptor) := by
  cases event with
  | start => exact .inl rfl
  | stop event => exact .inr (.inl ⟨event, rfl⟩)
  | loop k event =>
      right; right
      simp only [Net.Server.next, Net.Server.nextLoop] at h
      split at h
      · split at h
        · cases h
        · split at h
          case h_4 =>
            split at h
            · cases h
            · cases h
              exact ⟨rfl, rfl, rfl, rfl⟩
          case h_6 => cases h
          all_goals
            cases h
            exact ⟨rfl, rfl, rfl, rfl⟩
      · cases h
  | session i resumption =>
      right; right
      simp only [Net.Server.next, Net.Server.nextSession] at h
      split at h
      · split at h
        · split at h
          · cases h
          · split at h
            · split at h
              · cases h
              · cases h
                exact ⟨rfl, rfl, rfl, rfl⟩
            · cases h
              exact ⟨rfl, rfl, rfl, rfl⟩
        · cases h
      · cases h
  | expire i =>
      cases h
      exact .inr (.inr ⟨rfl, rfl, rfl, rfl⟩)

/-- Behind the closing of the acceptors a step may do what it likes with the phase. -/
theorem Closing.kept (ht : Closing t) (hclosed : t.phase.closed true = true)
    (hstarted : t'.started = t.started) (hacceptor : t'.acceptor = t.acceptor)
    (hhttpsAcceptor : t'.httpsAcceptor = t.httpsAcceptor) : Closing t' where
  started := by
    intro _
    rw [hstarted]
    apply ht.started
    intro hidle
    rw [hidle] at hclosed
    cases hclosed
  closed := by
    intro tls _
    have hboth : t.phase.closed tls = true := by
      cases hphase : t.phase <;> rw [hphase] at hclosed <;> first | rfl | cases hclosed
    rw [← ht.closed tls hboth, Net.Server.isOpen, Net.Server.isOpen, hacceptor, hhttpsAcceptor]

theorem closing_of_stop {event : StopEvent} (ht : Closing t) (h : t.nextStop event = some t') :
    Closing t' := by
  unfold Net.Server.nextStop at h
  split at h
  case h_1 =>
    split at h
    · cases h
      exact ⟨fun _ => rfl, nofun⟩
    · cases h
  case h_2 hphase =>
    cases h
    refine ⟨fun _ => ht.started (by simp [hphase]), fun tls hclosed => ?_⟩
    cases tls with
    | false => rfl
    | true => cases hclosed
  case h_3 hphase =>
    cases h
    refine ⟨fun _ => ht.started (by simp [hphase]), fun tls _ => ?_⟩
    cases tls with
    | false => exact ht.closed false (by rw [hphase]; rfl)
    | true => rfl
  case h_11 => cases h
  all_goals
    rename_i hphase
    try split at h
    all_goals cases h
    all_goals exact ht.kept (by rw [hphase]; rfl) rfl rfl rfl

theorem closing_of_next {config : Net.ServerConfig} {event : ServerEvent} (ht : Closing t)
    (h : t.next config event = some t') : Closing t' := by
  obtain rfl | ⟨stop, rfl⟩ | ⟨hphase, hstarted, hacceptor, hhttpsAcceptor⟩ := next_frame h
  · simp only [Net.Server.next, Net.Server.nextStart] at h
    split at h
    · cases h
    · cases h
      refine ⟨fun hbusy => absurd rfl hbusy, fun tls hclosed => ?_⟩
      cases hclosed
  · exact closing_of_stop ht h
  · refine ⟨?_, fun tls hclosed => ?_⟩
    · rw [hphase, hstarted]
      exact ht.started
    · rw [hphase] at hclosed
      rw [← ht.closed tls hclosed, Net.Server.isOpen, Net.Server.isOpen, hacceptor, hhttpsAcceptor]

/-- **The `Stop` of `Server.Lifecycle`, when it has returned, shows what `stop` leaves**, whatever
the loops and the sessions have done in the meantime. -/
theorem stop_refines (hs : s.started = true) {timedOut : Bool}
    (h : (Net.Server.runs config.lifecycle).Reachable t) (hphase : t.phase = .returned timedOut) :
    Shows s.stop t := by
  have hclosing : Closing t := by
    apply h.invariant
    · intro t hinit
      rw [show t = {} from hinit]
      exact ⟨fun hbusy => absurd rfl hbusy, nofun⟩
    · intro t event t' ht hstep
      exact closing_of_next ht hstep
  unfold Server.stop
  rw [if_pos hs]
  constructor
  · exact hclosing.started (by simp [hphase])
  · exact hclosing.closed false (by rw [hphase]; rfl)
  · exact hclosing.closed true (by rw [hphase]; rfl)

end

end RecipesCore.Net.Startup
