import Mathlib.Data.Finset.Basic
import RecipesCore.Logic.Transition
import RecipesCore.Server.Session

/-!
# `net::Server` from `Start` to `Stop`

The accept loops, the sessions and a thread in `Stop`, in any interleaving. A control block is the
index of its connection. `Effect` says once what a step can do to the stages of the connections, the
registry and the accept loops, and the invariants of the registry are derived from that.
-/

namespace RecipesCore.Net

open RecipesCore.Logic

/-! ## State -/

/-- Who has the socket of a connection, or which socket a close handle closes. -/
inductive Holder where
  | sessionSocket
  | stream
  /-- `SendPayloadLimitResponse` takes the stream by value. -/
  | limitResponse
  deriving DecidableEq, Repr

inductive Stage where
  /-- `async_accept` has completed in this accept loop. -/
  | accepted (k : Nat)
  /-- `RegisterSession` has run, `spawn` has not. -/
  | registered (k : Nat)
  | running (point : Point)
  deriving DecidableEq, Repr

/-- Registered, and its coroutine has not returned. -/
def Stage.live : Stage → Bool
  | .accepted _ => false
  | .registered _ => true
  | .running point => point ≠ .returned

def Stage.isAccepted : Stage → Bool
  | .accepted _ => true
  | _ => false

structure Connection where
  tls : Bool
  stage : Stage
  isOpen : Bool := true
  socket : Holder := .sessionSocket
  /-- What `control->close` closes. -/
  handle : Holder := .sessionSocket
  /-- The close handle has closed the socket itself, not what the socket was moved from. -/
  closedByHandle : Bool := false
  deriving DecidableEq, Repr

inductive AcceptState where
  /-- At `while (started_)`. -/
  | checking
  | accepting
  | holding (i : Nat)
  | spawning (i : Nat)
  | exited
  deriving DecidableEq, Repr

structure Loop where
  tls : Bool
  state : AcceptState := .checking
  deriving DecidableEq, Repr

/-- Where `Stop` stands; `idle` when it is not running. -/
inductive StopPhase where
  | idle
  | exchanged
  | acceptorClosed
  | httpsAcceptorClosed
  /-- In `CloseSessions`, which holds `sessions_mutex_`, with these still to close. -/
  | closing (remaining : Finset Nat)
  | sessionsClosed
  | waited (timedOut : Bool)
  | contextStopped (timedOut : Bool)
  /-- The workers are joined: no coroutine runs until the next `Start`. -/
  | returned (timedOut : Bool)
  deriving DecidableEq

structure ServerConfig where
  http : Bool
  https : Bool
  tls : TlsConfig := {}

structure Server where
  started : Bool := false
  acceptor : Bool := false
  httpsAcceptor : Bool := false
  loops : List Loop := []
  /-- Every connection that was ever accepted. -/
  connections : List Connection := []
  sessions : Finset Nat := ∅
  phase : StopPhase := .idle
  /-- The calls of `UnregisterSession`, for the statements only. -/
  unregistered : List Nat := []

/-! ## Steps -/

inductive StopEvent where
  | exchange
  | closeAcceptor
  | closeHttpsAcceptor
  | lockSessions
  | closeSession (i : Nat)
  | unlockSessions
  | waitSucceeds
  | waitTimesOut
  | stopContext
  | join
  deriving DecidableEq, Repr

inductive LoopEvent where
  | check
  | accept
  | acceptFails
  | register
  | spawn
  deriving DecidableEq, Repr

inductive ServerEvent where
  | start
  | stop (event : StopEvent)
  | loop (k : Nat) (event : LoopEvent)
  | session (i : Nat) (resumption : Resumption)
  | expire (i : Nat)
  deriving DecidableEq, Repr

/-- The session waits for the stream, whose timer runs. -/
def Point.timed : Point → Bool
  | .shaking | .reading | .limiting | .writing _ => true
  | _ => false

def Connection.to (stage : Stage) (c : Connection) : Connection := { c with stage }

/-- `session->close()`. -/
def Connection.close (c : Connection) : Connection :=
  if c.handle = c.socket then { c with isOpen := false, closedByHandle := true } else c

/-- The timer of the stream closes the socket. -/
def Connection.expire (c : Connection) : Connection :=
  match c.stage with
  | .running point => { c with isOpen := c.isOpen && !point.timed }
  | _ => c

/-- A session has come to `point`, where the socket and the handle may have moved. -/
def Connection.resumed (resumption : Resumption) (point : Point) (c : Connection) : Connection :=
  { c with
    stage := .running point
    isOpen := c.isOpen && point ≠ .returned
    socket := if resumption = .move then .stream
      else if point = .limiting then .limitResponse else c.socket
    handle := if resumption = .replaceClose then .stream else c.handle }

namespace Server

def isOpen (s : Server) (tls : Bool) : Bool := if tls then s.httpsAcceptor else s.acceptor

def setLoop (s : Server) (k : Nat) (state : AcceptState) : Server :=
  { s with loops := s.loops.modify k fun l => { l with state } }

def modifyConnection (s : Server) (i : Nat) (f : Connection → Connection) : Server :=
  { s with connections := s.connections.modify i f }

/-- `sessions_mutex_` is held. -/
def locked (s : Server) : Bool :=
  match s.phase with
  | .closing _ => true
  | _ => false

/-- The worker threads run `io_context_`. -/
def working (s : Server) : Bool :=
  match s.phase with
  | .returned _ => false
  | _ => true

/-- A pending `async_accept` fails when its acceptor is closed, and the loop returns. -/
def abortAccept (tls : Bool) (l : Loop) : Loop :=
  if l.tls = tls ∧ l.state = .accepting then { l with state := .exited } else l

/-- Without the `Start` calls that fail: they leave the server as it was. -/
def nextStart (config : ServerConfig) (s : Server) : Option Server :=
  if s.started ∨ (s.phase ≠ .idle ∧ s.working) ∨ (¬ config.http ∧ ¬ config.https) then none
  else
    some { s with
      started := true
      acceptor := config.http
      httpsAcceptor := config.https
      loops := s.loops ++ (if config.http then [{ tls := false }] else []) ++
        (if config.https then [{ tls := true }] else [])
      phase := .idle }

/-- Without the `Stop` calls that find `started_` cleared: they return at once. -/
def nextStop (s : Server) (event : StopEvent) : Option Server :=
  match s.phase, event with
  | .idle, .exchange =>
      if s.started then some { s with started := false, phase := .exchanged } else none
  | .exchanged, .closeAcceptor =>
      some { s with
        acceptor := false, loops := s.loops.map (abortAccept false), phase := .acceptorClosed }
  | .acceptorClosed, .closeHttpsAcceptor =>
      some { s with
        httpsAcceptor := false, loops := s.loops.map (abortAccept true)
        phase := .httpsAcceptorClosed }
  | .httpsAcceptorClosed, .lockSessions => some { s with phase := .closing s.sessions }
  | .closing remaining, .closeSession i =>
      if i ∈ remaining then
        some { s.modifyConnection i Connection.close with phase := .closing (remaining.erase i) }
      else none
  | .closing remaining, .unlockSessions =>
      if remaining = ∅ then some { s with phase := .sessionsClosed } else none
  | .sessionsClosed, .waitSucceeds =>
      if s.sessions = ∅ then some { s with phase := .waited false } else none
  | .sessionsClosed, .waitTimesOut => some { s with phase := .waited true }
  | .waited timedOut, .stopContext => some { s with phase := .contextStopped timedOut }
  | .contextStopped timedOut, .join => some { s with phase := .returned timedOut }
  | _, _ => none

/-- `AcceptLoop` and `AcceptHttpsLoop`. -/
def nextLoop (s : Server) (k : Nat) (event : LoopEvent) : Option Server :=
  match s.loops[k]? with
  | none => none
  | some l =>
      match l.state, event with
      | .checking, .check =>
          some (s.setLoop k (if s.started ∧ s.isOpen l.tls then .accepting else .exited))
      | .accepting, .accept =>
          some { s.setLoop k (.holding s.connections.length) with
            connections := s.connections ++ [{ tls := l.tls, stage := .accepted k }] }
      | .accepting, .acceptFails => some (s.setLoop k .exited)
      | .holding i, .register =>
          if s.locked then none
          else
            some { (s.setLoop k (.spawning i)).modifyConnection i (.to (.registered k)) with
              sessions := insert i s.sessions }
      | .spawning i, .spawn =>
          some ((s.setLoop k .checking).modifyConnection i (.to (.running .spawned)))
      | _, _ => none

/-- `Session` or `TlsSession`. -/
def nextSession (config : ServerConfig) (s : Server) (i : Nat) (resumption : Resumption) :
    Option Server :=
  match s.connections[i]? with
  | some { tls, stage := .running point, isOpen, .. } =>
      match if tls then TlsSession config.tls isOpen point resumption
        else Session isOpen point resumption with
      | none => none
      | some (point', actions) =>
          -- The step calls `UnregisterSession` when it gets the mutex.
          if .unregister ∈ actions then
            if s.locked then none
            else
              some { s.modifyConnection i (.resumed resumption point') with
                sessions := s.sessions.erase i
                unregistered :=
                  s.unregistered ++ (actions.filter (· = .unregister)).map fun _ => i }
          else some (s.modifyConnection i (.resumed resumption point'))
  | _ => none

def next (config : ServerConfig) (s : Server) : ServerEvent → Option Server
  | .start => s.nextStart config
  | .stop event => s.nextStop event
  | .loop k event => if s.working then s.nextLoop k event else none
  | .session i resumption => if s.working then s.nextSession config i resumption else none
  | .expire i => some (s.modifyConnection i Connection.expire)

def runs (config : ServerConfig) : System Server ServerEvent where
  init s := s = {}
  step s event s' := s.next config event = some s'

/-! ## What a step can do -/

def stageOf (s : Server) (i : Nat) : Option Stage := (s.connections[i]?).map Connection.stage

def loopAt (s : Server) (k : Nat) : Option AcceptState := (s.loops[k]?).map Loop.state

/-- No loop has got a connection. -/
def LoopsKeep (s s' : Server) : Prop :=
  ∀ k i, (s'.loopAt k = some (.holding i) → s.loopAt k = some (.holding i)) ∧
    (s'.loopAt k = some (.spawning i) → s.loopAt k = some (.spawning i))

/-- The stage of `i` is `stage` now, and no other has changed. -/
def StageSet (s s' : Server) (i : Nat) (stage : Stage) : Prop :=
  ∀ j, s'.stageOf j = if j = i then (s.stageOf j).map fun _ => stage else s.stageOf j

def LoopSet (s s' : Server) (k : Nat) (state : AcceptState) : Prop :=
  ∀ k', s'.loopAt k' = if k' = k then (s.loopAt k').map fun _ => state else s.loopAt k'

inductive Effect (s s' : Server) : Prop where
  | quiet : (∀ j, s'.stageOf j = s.stageOf j) → s.LoopsKeep s' → s'.sessions = s.sessions →
      s'.unregistered = s.unregistered → Effect s s'
  | accepted (k i : Nat) : s.loopAt k = some .accepting → s.stageOf i = none →
      (∀ j, s'.stageOf j = if j = i then some (.accepted k) else s.stageOf j) →
      s.LoopSet s' k (.holding i) → s'.sessions = s.sessions →
      s'.unregistered = s.unregistered → Effect s s'
  | registered (k i : Nat) : s.loopAt k = some (.holding i) → s.StageSet s' i (.registered k) →
      s.LoopSet s' k (.spawning i) → s'.sessions = insert i s.sessions →
      s'.unregistered = s.unregistered → Effect s s'
  | spawned (k i : Nat) : s.loopAt k = some (.spawning i) →
      s.StageSet s' i (.running .spawned) → s.LoopSet s' k .checking →
      s'.sessions = s.sessions → s'.unregistered = s.unregistered → Effect s s'
  | resumed (i : Nat) (p q : Point) : s.stageOf i = some (.running p) → p ≠ .returned →
      q ≠ .returned → s.StageSet s' i (.running q) → s'.loops = s.loops →
      s'.sessions = s.sessions → s'.unregistered = s.unregistered → Effect s s'
  | returned (i : Nat) (p : Point) : s.stageOf i = some (.running p) → p ≠ .returned →
      s.StageSet s' i (.running .returned) → s'.loops = s.loops →
      s'.sessions = s.sessions.erase i → s'.unregistered = s.unregistered ++ [i] → Effect s s'

section

variable {s s' : Server} {i k : Nat}

/-- A change of a connection that keeps its stage keeps all stages. -/
theorem stageOf_of_modify {f : Connection → Connection}
    (h : s'.connections = s.connections.modify i f) (hf : ∀ c, (f c).stage = c.stage) (j : Nat) :
    s'.stageOf j = s.stageOf j := by
  rw [stageOf, stageOf, h, List.getElem?_modify]
  cases s.connections[j]? with
  | none => rfl
  | some c =>
      simp only [Option.map_eq_map, Option.map_some]
      split <;> simp [hf]

/-- A change of a connection sets the stage of that one only. -/
theorem stageSet_of_modify {f : Connection → Connection} {stage : Stage}
    (h : s'.connections = s.connections.modify i f) (hf : ∀ c, (f c).stage = stage) :
    s.StageSet s' i stage := by
  intro j
  rw [stageOf, stageOf, h, List.getElem?_modify]
  cases s.connections[j]? with
  | none => simp
  | some c => by_cases hj : i = j <;> simp [hj, hf, eq_comm]

/-- A new connection has a stage, the others keep theirs. -/
theorem stageOf_of_append {c : Connection} {stage : Stage}
    (h : s'.connections = s.connections ++ [c]) (hc : c.stage = stage) (j : Nat) :
    s'.stageOf j = if j = s.connections.length then some stage else s.stageOf j := by
  rw [stageOf, stageOf, h, List.getElem?_append]
  rcases Nat.lt_trichotomy j s.connections.length with hj | rfl | hj
  · rw [if_pos hj, if_neg (Nat.ne_of_lt hj)]
  · simp [hc]
  · rw [if_neg (Nat.lt_asymm hj), if_neg (Nat.ne_of_gt hj), List.getElem?_eq_none (by simp; omega),
      List.getElem?_eq_none (Nat.le_of_lt hj)]

/-- An accept loop changes its own state only. -/
theorem loopSet_of_modify {state : AcceptState}
    (h : s'.loops = s.loops.modify k fun l => { l with state }) : s.LoopSet s' k state := by
  intro k'
  rw [loopAt, loopAt, h, List.getElem?_modify]
  cases s.loops[k']? with
  | none => simp
  | some l => by_cases hk : k = k' <;> simp [hk, eq_comm]

/-- The inversion lemma of `Session` and `TlsSession`, as the server sees them. -/
theorem nextSession_cases {config : ServerConfig} {resumption : Resumption}
    (h : s.nextSession config i resumption = some s') :
    ∃ c p q actions, s.connections[i]? = some c ∧ c.stage = .running p ∧
      SessionStep p actions q ∧ s'.connections = s.connections.modify i (.resumed resumption q) ∧
      s'.loops = s.loops ∧ s'.phase = s.phase ∧ s'.started = s.started ∧
      (q ≠ .returned → s'.sessions = s.sessions ∧ s'.unregistered = s.unregistered) ∧
      (q = .returned → s'.sessions = s.sessions.erase i ∧
        s'.unregistered = s.unregistered ++ [i]) := by
  unfold nextSession at h
  split at h
  · next tls p isOpen socket handle closed hc =>
    split at h
    · cases h
    · next q actions hnext =>
      have hstep : SessionStep p actions q := by
        split at hnext
        · exact sessionStep_of_tlsSession hnext
        · exact sessionStep_of_session hnext
      refine ⟨_, p, q, actions, hc, rfl, hstep, ?_⟩
      have hunregister := hstep.unregister
      split at h
      · next hmem =>
        split at h
        · cases h
        · cases h
          have hq : q = .returned := by
            by_contra hq
            rw [if_neg hq] at hunregister
            exact absurd hmem (List.filter_eq_nil_iff.mp hunregister _ · (by simp))
          rw [if_pos hq] at hunregister
          exact ⟨rfl, rfl, rfl, rfl, fun hne => absurd hq hne, fun _ => ⟨rfl, by simp [hunregister]⟩⟩
      · next hmem =>
        cases h
        have hq : q ≠ .returned := by
          rintro rfl
          rw [if_pos rfl] at hunregister
          exact hmem (List.mem_filter.mp (hunregister ▸ List.mem_singleton_self _)).1
        exact ⟨rfl, rfl, rfl, rfl, fun _ => ⟨rfl, rfl⟩, fun h => absurd h hq⟩
  · cases h

theorem loopsKeep_of_eq (h : s'.loops = s.loops) : s.LoopsKeep s' := by
  intro k i
  simp [loopAt, h]

theorem loopsKeep_of_append {more : List Loop} (h : s'.loops = s.loops ++ more)
    (hmore : ∀ l ∈ more, l.state = .checking) : s.LoopsKeep s' := by
  intro k i
  rw [loopAt, loopAt, h]
  by_cases hk : k < s.loops.length
  · rw [List.getElem?_append_left hk]
    exact ⟨id, id⟩
  · rw [List.getElem?_append_right (Nat.le_of_not_lt hk)]
    cases hl : more[k - s.loops.length]? with
    | none => simp
    | some l => simp [hmore l (List.mem_of_getElem? hl)]

/-- An aborted accept loop accepts nothing more. -/
theorem loopsKeep_of_abort {tls : Bool} (h : s'.loops = s.loops.map (abortAccept tls)) :
    s.LoopsKeep s' := by
  intro k i
  rw [loopAt, loopAt, h, List.getElem?_map]
  cases s.loops[k]? with
  | none => simp
  | some l =>
      simp only [Option.map_some, abortAccept]
      split <;> simp

/-- A loop that only stops or goes on holds nothing. -/
theorem loopsKeep_of_set {state : AcceptState} (h : s.LoopSet s' k state)
    (hstate : ∀ i, state ≠ .holding i ∧ state ≠ .spawning i) : s.LoopsKeep s' := by
  intro k' i
  rw [h k']
  split
  · cases s.loopAt k' with
    | none => simp
    | some l => simp [hstate i]
  · exact ⟨id, id⟩

/-- Closing a socket does not move the coroutine. -/
theorem close_stage (c : Connection) : c.close.stage = c.stage := by
  rw [Connection.close]
  split <;> rfl

theorem expire_stage (c : Connection) : c.expire.stage = c.stage := by
  rw [Connection.expire]
  split <;> simp [*]

/-- `Start` opens listeners and accept loops. -/
theorem nextStart_effect {config : ServerConfig} (h : s.nextStart config = some s') :
    Effect s s' := by
  unfold nextStart at h
  split at h
  · cases h
  · cases h
    refine .quiet (fun _ => rfl) (loopsKeep_of_append (List.append_assoc ..) ?_) rfl rfl
    intro l hl
    cases config.http <;> cases config.https <;> simp at hl <;> grind

/-- `Stop` closes sockets, but moves no session. -/
theorem nextStop_effect {event : StopEvent} (h : s.nextStop event = some s') : Effect s s' := by
  unfold nextStop at h
  split at h
  -- the two acceptors are closed
  case h_2 =>
    cases h
    exact .quiet (fun _ => rfl) (loopsKeep_of_abort rfl) rfl rfl
  case h_3 =>
    cases h
    exact .quiet (fun _ => rfl) (loopsKeep_of_abort rfl) rfl rfl
  -- a session is closed, which moves no connection on
  case h_5 remaining i =>
    split at h
    · cases h
      exact .quiet (stageOf_of_modify rfl close_stage) (loopsKeep_of_eq rfl) rfl rfl
    · cases h
  case h_11 => cases h
  all_goals
    try split at h
    all_goals cases h
    all_goals exact .quiet (fun _ => rfl) (loopsKeep_of_eq rfl) rfl rfl

/-- An accept loop may accept a connection, register it and spawn its session. -/
theorem nextLoop_effect {event : LoopEvent} (h : s.nextLoop k event = some s') :
    Effect s s' := by
  unfold nextLoop at h
  split at h
  · cases h
  · next l hl =>
    split at h
    case h_1 =>
      cases h
      refine .quiet (fun _ => rfl) (loopsKeep_of_set (loopSet_of_modify rfl) fun i => ?_) rfl rfl
      split <;> simp
    -- a connection is accepted, registered and spawned, each in its own step
    case h_2 hstate =>
      cases h
      exact .accepted k s.connections.length (by simp [loopAt, hl, hstate]) (by simp [stageOf])
        (stageOf_of_append rfl rfl)
        (loopSet_of_modify rfl) rfl rfl
    case h_3 =>
      cases h
      exact .quiet (fun _ => rfl) (loopsKeep_of_set (loopSet_of_modify rfl) (by simp)) rfl rfl
    case h_4 i hstate =>
      split at h
      · cases h
      · cases h
        exact .registered k i (by simp [loopAt, hl, hstate])
          (stageSet_of_modify rfl fun _ => rfl) (loopSet_of_modify rfl) rfl rfl
    case h_5 i hstate =>
      cases h
      exact .spawned k i (by simp [loopAt, hl, hstate]) (stageSet_of_modify rfl fun _ => rfl)
        (loopSet_of_modify rfl) rfl rfl
    case h_6 => cases h

/-- A session moves its own connection. -/
theorem nextSession_effect {config : ServerConfig} {resumption : Resumption}
    (h : s.nextSession config i resumption = some s') : Effect s s' := by
  obtain ⟨c, p, q, actions, hc, hp, hstep, hconnections, hloops, -, -, hgoes, hreturns⟩ :=
    nextSession_cases h
  have hstage : s.stageOf i = some (.running p) := by rw [stageOf, hc, Option.map_some, hp]
  have hset : s.StageSet s' i (.running q) := stageSet_of_modify hconnections fun _ => rfl
  by_cases hq : q = .returned
  · subst hq
    exact .returned i p hstage hstep.live hset hloops (hreturns rfl).1 (hreturns rfl).2
  · exact .resumed i p q hstage hstep.live hq hset hloops (hgoes hq).1 (hgoes hq).2

/-- The inversion lemma. -/
theorem next_effect {config : ServerConfig} {event : ServerEvent}
    (h : s.next config event = some s') : Effect s s' := by
  cases event with
  | start => exact nextStart_effect h
  | stop event => exact nextStop_effect h
  | loop k event =>
      rw [next] at h
      split at h
      · exact nextLoop_effect h
      · cases h
  | session i resumption =>
      rw [next] at h
      split at h
      · exact nextSession_effect h
      · cases h
  | expire i =>
      cases h
      exact .quiet (stageOf_of_modify rfl expire_stage) (loopsKeep_of_eq rfl) rfl rfl

end

/-! ## The registry -/

/-- The registry is exact, and a loop that has a connection is the one that accepted it. -/
structure Exact (s : Server) : Prop where
  holds : ∀ k i, s.loopAt k = some (.holding i) → s.stageOf i = some (.accepted k)
  spawns : ∀ k i, s.loopAt k = some (.spawning i) → s.stageOf i = some (.registered k)
  sessions : ∀ i, i ∈ s.sessions ↔ ∃ stage, s.stageOf i = some stage ∧ stage.live = true
  unregistered : ∀ i, s.unregistered.count i =
    if s.stageOf i = some (.running .returned) then 1 else 0

theorem exact_init : Exact {} where
  holds := nofun
  spawns := nofun
  sessions _ := by simp [stageOf]
  unregistered _ := by simp [stageOf]

theorem LoopSet.cases {s s' : Server} {k : Nat} {state : AcceptState} (h : s.LoopSet s' k state)
    (k' : Nat) (state' : AcceptState) (h' : s'.loopAt k' = some state') :
    k' = k ∧ state' = state ∨ k' ≠ k ∧ s.loopAt k' = some state' := by
  rw [h k'] at h'
  split at h'
  · next hk =>
    obtain ⟨-, -, heq⟩ := Option.map_eq_some_iff.mp h'
    exact Or.inl ⟨hk, heq.symm⟩
  · next hk => exact Or.inr ⟨hk, h'⟩

theorem StageSet.of_some {s s' : Server} {i : Nat} {old stage : Stage} (h : s.StageSet s' i stage)
    (hold : s.stageOf i = some old) (j : Nat) :
    s'.stageOf j = if j = i then some stage else s.stageOf j := by
  rw [h j]
  split
  · next hj => rw [hj, hold, Option.map_some]
  · rfl

/-- The step lemma. -/
theorem Effect.exact {s s' : Server} (h : Effect s s') (hs : Exact s) : Exact s' := by
  obtain ⟨holds, spawns, sessions, unregistered⟩ := hs
  cases h with
  | quiet hstage hloops hsessions hunregistered =>
      constructor <;> grind [LoopsKeep]
  | accepted k i hloop hfresh hstage hloops hsessions hunregistered =>
      have hcases := hloops.cases
      constructor <;> grind [Stage.live]
  | registered k i hloop hstage hloops hsessions hunregistered =>
      replace hstage := hstage.of_some (holds k i hloop)
      have hcases := hloops.cases
      constructor <;> grind [Stage.live]
  | spawned k i hloop hstage hloops hsessions hunregistered =>
      replace hstage := hstage.of_some (spawns k i hloop)
      have hcases := hloops.cases
      constructor <;> grind [Stage.live]
  | resumed i p q hp hlive hq hstage hloops hsessions hunregistered =>
      replace hstage := hstage.of_some hp
      constructor <;> grind [Stage.live, loopAt]
  | returned i p hp hlive hstage hloops hsessions hunregistered =>
      replace hstage := hstage.of_some hp
      constructor <;> grind [Stage.live, loopAt]

/-- **The registry is exact in every state that can be reached.** -/
theorem reachable_exact {config : ServerConfig} {s : Server}
    (h : (runs config).Reachable s) : Exact s := by
  refine h.invariant ?_ fun s event s' hs hstep => ?_
  · rintro s rfl
    exact exact_init
  · exact (next_effect (show s.next config event = some s' from hstep)).exact hs

theorem stageOf_eq_some {s : Server} {i : Nat} {stage : Stage} :
    s.stageOf i = some stage ↔ ∃ c, s.connections[i]? = some c ∧ c.stage = stage :=
  Option.map_eq_some_iff

/-- **The registry is exact**: `sessions_` holds the registered sessions that have not returned,
a session that has returned has unregistered once, and the predicate `Stop` waits for says that no
session is running. -/
theorem registry_exact (config : ServerConfig) (s : Server) (h : (runs config).Reachable s) :
    (∀ i, i ∈ s.sessions ↔ ∃ c, s.connections[i]? = some c ∧ c.stage.live = true) ∧
    (∀ i c, s.connections[i]? = some c →
      s.unregistered.count i = if c.stage = .running .returned then 1 else 0) ∧
    (s.sessions = ∅ ↔ ∀ c ∈ s.connections, c.stage.live = false) := by
  have hs := reachable_exact h
  have hsessions : ∀ i, i ∈ s.sessions ↔ ∃ c, s.connections[i]? = some c ∧
      c.stage.live = true := by
    intro i
    rw [hs.sessions i]
    constructor
    · rintro ⟨stage, hstage, hlive⟩
      obtain ⟨c, hc, rfl⟩ := stageOf_eq_some.mp hstage
      exact ⟨c, hc, hlive⟩
    · rintro ⟨c, hc, hlive⟩
      exact ⟨c.stage, stageOf_eq_some.mpr ⟨c, hc, rfl⟩, hlive⟩
  refine ⟨hsessions, fun i c hc => ?_, ?_⟩
  · have hstage : s.stageOf i = some c.stage := stageOf_eq_some.mpr ⟨c, hc, rfl⟩
    rw [hs.unregistered i, hstage]
    simp
  · constructor
    · intro hempty c hc
      obtain ⟨i, hi⟩ := List.mem_iff_getElem?.mp hc
      by_contra hlive
      have hmem : i ∈ s.sessions := (hsessions i).mpr ⟨c, hi, by simpa using hlive⟩
      simp [hempty] at hmem
    · intro hnone
      refine Finset.eq_empty_of_forall_notMem fun i hi => ?_
      obtain ⟨c, hc, hlive⟩ := (hsessions i).mp hi
      rw [hnone c (List.mem_of_getElem? hc)] at hlive
      cases hlive

/-- A session over HTTP whose read threw, and one over HTTPS that waits for its handshake. -/
def twoSessions : List ServerEvent :=
  [.start, .loop 0 .check, .loop 1 .check, .loop 0 .accept, .loop 0 .register, .loop 1 .accept,
    .loop 0 .spawn, .session 0 .move, .loop 1 .register, .session 0 .replaceClose, .loop 1 .spawn,
    .session 1 .move, .session 0 (.read .threw), .session 1 .replaceClose]

/-- The server after `twoSessions`. -/
def afterTwo : Server := System.play (next { http := true, https := true }) {} twoSessions

theorem registry_exact_two :
    ((∀ i, i ∈ afterTwo.sessions ↔
        ∃ c, afterTwo.connections[i]? = some c ∧ c.stage.live = true) ∧
      (∀ i c, afterTwo.connections[i]? = some c →
        afterTwo.unregistered.count i = if c.stage = .running .returned then 1 else 0) ∧
      (afterTwo.sessions = ∅ ↔ ∀ c ∈ afterTwo.connections, c.stage.live = false)) ∧
    afterTwo.sessions = {1} ∧ afterTwo.unregistered = [0] :=
  ⟨registry_exact _ _ (System.Reachable.play (S := runs { http := true, https := true })
      (fun _ _ _ h => h) (.init rfl) twoSessions),
    by decide +kernel⟩

/-! ## `Stop` -/

end Server

/-- The acceptor of this protocol has been closed. -/
def StopPhase.closed (tls : Bool) : StopPhase → Bool
  | .idle | .exchanged => false
  | .acceptorClosed => !tls
  | _ => true

/-- The wait of `Stop` is over, and has not timed out. -/
def StopPhase.attended : StopPhase → Bool
  | .waited timedOut | .contextStopped timedOut | .returned timedOut => !timedOut
  | _ => false

namespace Server

structure Shutting (s : Server) : Prop where
  cleared : s.phase ≠ .idle → s.started = false
  aborted : ∀ l ∈ s.loops, s.phase.closed l.tls = true → l.state ≠ .accepting
  attended : s.phase.attended = true → ∀ i stage, s.stageOf i = some stage →
    stage = .running .returned

/-- When the wait of `Stop` succeeds, no accept loop has a connection it has not registered. -/
def Registered (s : Server) (event : ServerEvent) : Prop :=
  event = .stop .waitSucceeds → ∀ c ∈ s.connections, c.stage.isAccepted = false

instance (s : Server) (event : ServerEvent) : Decidable (s.Registered event) :=
  inferInstanceAs (Decidable (_ → _))

theorem shutting_init : Shutting {} where
  cleared := fun h => absurd rfl h
  aborted := nofun
  attended := nofun

section

variable {s s' : Server} {i k : Nat}

theorem attended_closed {phase : StopPhase} (h : phase.attended = true) (tls : Bool) :
    phase.closed tls = true := by
  cases phase <;> first | rfl | cases h

/-- Behind the wait nothing is accepted, registered, spawned or resumed. -/
theorem Effect.attended (h : Effect s s') (hexact : Exact s) (hs : Shutting s)
    (hphase : s.phase.attended = true) (j : Nat) : s'.stageOf j = s.stageOf j := by
  have hall := hs.attended hphase
  cases h with
  | quiet hstage => exact hstage j
  | accepted k i hloop =>
      obtain ⟨l, hl, hstate⟩ := Option.map_eq_some_iff.mp hloop
      exact absurd hstate (hs.aborted l (List.mem_of_getElem? hl) (attended_closed hphase l.tls))
  | registered k i hloop => cases hall i _ (hexact.holds k i hloop)
  | spawned k i hloop => cases hall i _ (hexact.spawns k i hloop)
  | resumed i p q hp hlive =>
      cases hall i _ hp
      exact absurd rfl hlive
  | returned i p hp hlive =>
      cases hall i _ hp
      exact absurd rfl hlive

/-- A loop that is not told to stop is the only one that starts to accept. -/
theorem nextLoop_cases {event : LoopEvent} (h : s.nextLoop k event = some s') :
    ∃ state, s'.loops = s.loops.modify k (fun l => { l with state }) ∧
      (state = .accepting → s.started = true) ∧ s'.phase = s.phase ∧ s'.started = s.started := by
  unfold nextLoop at h
  split at h
  · cases h
  · split at h
    case h_1 =>
      cases h
      refine ⟨_, rfl, fun haccepting => ?_, rfl, rfl⟩
      split at haccepting
      · next hopen => exact hopen.1
      · cases haccepting
    case h_4 =>
      split at h
      · cases h
      · cases h
        exact ⟨_, rfl, nofun, rfl, rfl⟩
    case h_6 => cases h
    all_goals
      cases h
      exact ⟨_, rfl, nofun, rfl, rfl⟩

/-- What still accepts after an abort belongs to the other listener. -/
theorem abortAccept_state {l l' : Loop} {tls : Bool} (h : abortAccept tls l = l') :
    l'.tls = l.tls ∧ (l'.state = .accepting → l.state = .accepting ∧ l.tls ≠ tls) := by
  subst h
  rw [abortAccept]
  split
  · exact ⟨rfl, nofun⟩
  · next h => exact ⟨rfl, fun hstate => ⟨hstate, fun htls => h ⟨htls, hstate⟩⟩⟩

theorem mem_loops_modify {state : AcceptState} {l : Loop}
    (hl : l ∈ s.loops.modify k fun l => { l with state }) (hstate : l.state = .accepting) :
    state = .accepting ∨ l ∈ s.loops := by
  obtain ⟨k', hk'⟩ := List.mem_iff_getElem?.mp hl
  rw [List.getElem?_modify] at hk'
  obtain ⟨l₀, hl₀, rfl⟩ := Option.map_eq_some_iff.mp hk'
  split at hstate
  · exact Or.inl hstate
  · next hk => exact Or.inr (by simpa [hk] using List.mem_of_getElem? hl₀)

/-- A step that leaves `Stop` where it is, and lets no loop accept after `started_` is cleared. -/
theorem Shutting.kept (hs : Shutting s) (hexact : Exact s) (heffect : Effect s s')
    (hphase : s'.phase = s.phase) (hstarted : s'.started = s.started)
    (hloops : ∀ l ∈ s'.loops, l.state = .accepting → s.started = true ∨ l ∈ s.loops) :
    Shutting s' where
  cleared := by
    rw [hphase, hstarted]
    exact hs.cleared
  aborted := by
    intro l hl hclosed hstate
    rw [hphase] at hclosed
    rcases hloops l hl hstate with hrunning | hl
    · have hidle : s.phase = .idle := by
        by_contra hne
        rw [hs.cleared hne] at hrunning
        cases hrunning
      rw [hidle] at hclosed
      cases hclosed
    · exact hs.aborted l hl hclosed hstate
  attended := by
    intro hattended j
    rw [hphase] at hattended
    rw [heffect.attended hexact hs hattended j]
    exact hs.attended hattended j

theorem nextStart_shutting {config : ServerConfig} (h : s.nextStart config = some s') :
    Shutting s' := by
  unfold nextStart at h
  split at h
  · cases h
  · cases h
    exact ⟨fun hphase => absurd rfl hphase, nofun, nofun⟩

/-- The wait succeeds when every connection has been attended to. -/
theorem all_returned (hexact : Exact s) (hempty : s.sessions = ∅)
    (hregistered : ∀ c ∈ s.connections, c.stage.isAccepted = false) (j : Nat) (stage : Stage)
    (hstage : s.stageOf j = some stage) : stage = .running .returned := by
  obtain ⟨c, hc, rfl⟩ := stageOf_eq_some.mp hstage
  have hnot : j ∉ s.sessions := by simp [hempty]
  have haccepted := hregistered c (List.mem_of_getElem? hc)
  rw [hexact.sessions] at hnot
  cases hrun : c.stage with
  | accepted _ => simp [hrun, Stage.isAccepted] at haccepted
  | registered _ => exact absurd ⟨_, hstage, by rw [hrun, Stage.live]⟩ hnot
  | running point =>
      by_contra hne
      refine hnot ⟨_, hstage, ?_⟩
      rw [hrun, Stage.live, decide_eq_true_iff]
      rintro rfl
      exact hne rfl

/-- Each step of `Stop` leaves less open. -/
theorem nextStop_shutting {event : StopEvent} (h : s.nextStop event = some s')
    (hexact : Exact s) (hs : Shutting s) (hregistered : s.Registered (.stop event)) :
    Shutting s' := by
  obtain ⟨cleared, aborted, attended⟩ := hs
  unfold nextStop at h
  split at h
  -- `started_` is cleared
  case h_1 =>
    split at h
    · cases h
      exact ⟨fun _ => rfl, nofun, nofun⟩
    · cases h
  -- the first acceptor is closed: none of its loops accepts any more
  case h_2 hphase =>
    cases h
    refine ⟨fun _ => cleared (by simp [hphase]), fun l' hl' hclosed hstate => ?_, nofun⟩
    obtain ⟨l, hl, habort⟩ := List.mem_map.mp hl'
    obtain ⟨htls, haccepting⟩ := abortAccept_state habort
    refine (haccepting hstate).2 ?_
    rw [← htls]
    simpa [StopPhase.closed] using hclosed
  -- with the second, no loop at all does
  case h_3 hphase =>
    cases h
    refine ⟨fun _ => cleared (by simp [hphase]), fun l' hl' hclosed hstate => ?_, nofun⟩
    obtain ⟨l, hl, habort⟩ := List.mem_map.mp hl'
    obtain ⟨htls, haccepting⟩ := abortAccept_state habort
    refine aborted l hl ?_ (haccepting hstate).1
    simpa [hphase, StopPhase.closed] using (haccepting hstate).2
  case h_5 hphase =>
    rw [hphase] at cleared aborted
    split at h
    · cases h
      exact ⟨fun _ => cleared nofun, aborted, nofun⟩
    · cases h
  -- the wait succeeds: there is no session, so every connection that was registered has returned
  case h_7 hphase =>
    split at h
    · next hempty =>
      cases h
      refine ⟨fun _ => cleared (by simp [hphase]), ?_, fun _ => ?_⟩
      · rw [hphase] at aborted
        exact aborted
      · exact all_returned (s := s) hexact hempty (hregistered rfl)
    · cases h
  case h_11 => cases h
  all_goals
    next hphase =>
    try split at h
    all_goals cases h
    all_goals
      rw [hphase] at cleared aborted attended
      exact ⟨fun _ => cleared nofun, aborted, attended⟩

/-- The step lemma. -/
theorem next_shutting {config : ServerConfig} {event : ServerEvent}
    (h : s.next config event = some s') (hexact : Exact s) (hs : Shutting s)
    (hregistered : s.Registered event) : Shutting s' := by
  have heffect := next_effect h
  cases event with
  | start => exact nextStart_shutting h
  | stop e => exact nextStop_shutting h hexact hs hregistered
  | loop k event =>
      rw [next] at h
      split at h
      · obtain ⟨state, hloops, haccepting, hphase, hstarted⟩ := nextLoop_cases h
        refine hs.kept hexact heffect hphase hstarted fun l hl hstate => ?_
        rw [hloops] at hl
        exact (mem_loops_modify hl hstate).imp_left haccepting
      · cases h
  | session i resumption =>
      rw [next] at h
      split at h
      · obtain ⟨c, p, q, actions, -, -, -, -, hloops, hphase, hstarted, -⟩ := nextSession_cases h
        exact hs.kept hexact heffect hphase hstarted fun l hl _ => Or.inr (hloops ▸ hl)
      · cases h
  | expire i =>
      cases h
      exact hs.kept hexact heffect rfl rfl fun l hl _ => Or.inr hl

end

/-- In every state that can be reached `Stop` has closed what its phase says. -/
theorem reachable_shutting {config : ServerConfig} {s : Server}
    (h : ((runs config).restrict Registered).Reachable s) : Exact s ∧ Shutting s := by
  refine h.invariant (I := fun s => Exact s ∧ Shutting s) ?_ fun s event s' hs hstep => ?_
  · rintro s rfl
    exact ⟨exact_init, shutting_init⟩
  · obtain ⟨hregistered, hstep⟩ := hstep
    have hnext : s.next config event = some s' := hstep
    exact ⟨(next_effect hnext).exact hs.1, next_shutting hnext hs.1 hs.2 hregistered⟩

/-- **`Stop` leaves no connection behind** in the runs where no connection waits to be registered
when the wait of `Stop` succeeds. -/
theorem stop_leaves_none (config : ServerConfig) (s : Server)
    (h : ((runs config).restrict Registered).Reachable s) (hphase : s.phase = .returned false) :
    ∀ c ∈ s.connections, c.closedByHandle = true ∨ c.stage = .running .returned := by
  intro c hc
  obtain ⟨i, hi⟩ := List.mem_iff_getElem?.mp hc
  have hattended := (reachable_shutting h).2.attended (by rw [hphase]; rfl)
  exact Or.inr (hattended i c.stage (stageOf_eq_some.mpr ⟨c, hi, rfl⟩))

/-- One connection, and a whole `Stop` from `accepted` on. -/
def stopAfter (accepted : List ServerEvent) (closed : List ServerEvent) : List ServerEvent :=
  [.start, .loop 0 .check, .loop 0 .accept] ++ accepted ++
    [.stop .exchange, .stop .closeAcceptor, .stop .closeHttpsAcceptor, .stop .lockSessions] ++
    closed ++ [.stop .stopContext, .stop .join]

/-- A session that is read from when it is closed: the read and the write of the answer fail. -/
def closedSession : List ServerEvent :=
  stopAfter
    [.loop 0 .register, .loop 0 .spawn, .session 0 .move, .session 0 .replaceClose]
    [.stop (.closeSession 0), .stop .unlockSessions, .session 0 (.read (.failed (.other 125) {})),
      .session 0 (.handled (some { status := .notFound, version := 11 })),
      .session 0 (.wrote false), .stop .waitSucceeds]

/-- The server after `closedSession`, each step taken only if it meets the condition. -/
def afterClosed : Server :=
  System.play
    (fun s event => if s.Registered event then s.next { http := true, https := false } event
      else none)
    {} closedSession

theorem stop_leaves_none_closed :
    (∀ c ∈ afterClosed.connections, c.closedByHandle = true ∨ c.stage = .running .returned) ∧
      afterClosed.connections.length = 1 ∧ afterClosed.phase = .returned false :=
  ⟨stop_leaves_none { http := true, https := false } afterClosed
      (System.Reachable.play_restrict (S := runs { http := true, https := false })
        (fun _ _ _ h => h) rfl closedSession) (by decide +kernel),
    by decide +kernel⟩

/-- A connection that is accepted before the acceptor is closed and registered after the wait. -/
def lateSession : List ServerEvent :=
  stopAfter [] [.stop .unlockSessions, .stop .waitSucceeds, .loop 0 .register, .loop 0 .spawn]

/-- `Stop` returns in time, and the socket is open and nobody's. -/
theorem late_connection_left :
    ∃ s, (runs { http := true, https := false }).Reachable s ∧ s.phase = .returned false ∧
      ∃ c ∈ s.connections, c.isOpen = true ∧ c.stage = .running .spawned ∧
        ¬ (c.closedByHandle = true ∨ c.stage = .running .returned) :=
  ⟨System.play (next { http := true, https := false }) {} lateSession,
    System.Reachable.play (S := runs { http := true, https := false }) (fun _ _ _ h => h)
      (.init rfl) lateSession,
    by decide +kernel⟩

end Server

end RecipesCore.Net
