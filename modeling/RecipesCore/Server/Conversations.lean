import RecipesCore.Server.Answering
import RecipesCore.Server.Linearizability
import RecipesCore.Server.Session

/-!
# Connections over one server

Any number of sessions, over plain TCP and over TLS, route what they read to one `Router` over one
executor. A session is at `co_await router_.HandleAsync(…)` until the coroutine of its own request
has returned, so each connection gets the responses to its requests in the order in which it made
them, and its requests do not overlap, even if it does not wait for the responses.
-/

namespace RecipesCore.Net

open RecipesCore.App RecipesCore.App.DatabaseExecutor
open RecipesCore.Logic

/-! ## State -/

/-- One connection. What its session has done is kept for the statements; its requests are named by
their exchanges. -/
structure Conversation where
  secure : Bool
  point : Point := .spawned
  trace : List SessionAction := []
  /-- The requests whose coroutines have returned to the session. -/
  handled : List Nat := []
  /-- The request that is in `HandleAsync`. -/
  current : Option Nat := none

structure Conversations where
  serving : Serving
  connections : List Conversation := []

inductive ConversationEvent where
  | accept (secure : Bool)
  /-- Something other than `HandleAsync` comes back to the session. -/
  | resume (c : Nat) (isOpen : Bool) (resumption : Resumption)
  /-- `HandleAsync` comes back to it. -/
  | handled (c : Nat) (isOpen : Bool)
  /-- A step of the requests that were routed. -/
  | serve (event : ServingEvent)

/-! ## Steps -/

def SessionAction.routed? : SessionAction → Option Request
  | .route request => some request
  | _ => none

/-- A response to a request that was routed. -/
def SessionAction.reply? : SessionAction → Option Response
  | .write response => some response
  | _ => none

def coroutine (tls : TlsConfig) (secure : Bool) :
    Bool → Point → Resumption → Option (Point × List SessionAction) :=
  if secure then TlsSession tls else Session

/-- What the session sends of a response. -/
def sent (tls : TlsConfig) (secure : Bool) (response : Response) : Response :=
  if secure && tls.enableHsts then response.withHsts else response

def Resumption.isHandled : Resumption → Bool
  | .handled _ => true
  | _ => false

/-- The session has gone on to `point`, where it waits for the request `current`, if for any. -/
def Conversation.to (x : Conversation) (point : Point) (actions : List SessionAction)
    (current : Option Nat) : Conversation :=
  { x with point, trace := x.trace ++ actions, handled := x.handled ++ x.current.toList, current }

namespace Conversations

variable (router : Router) (tls : TlsConfig)

/-- `router_.HandleAsync(std::move(request))` is called. -/
def route (s : Conversations) : Option Request → Conversations
  | some request => { s with serving := { s.serving with exchanges := s.serving.exchanges ++
      [{ request, progress := .running (router.handleAsync request)
         earlier := s.serving.answered }] } }
  | none => s

/-- The session goes on to `point`. -/
def goOn (s : Conversations) (c : Nat) (point : Point) (actions : List SessionAction) :
    Conversations :=
  let routed := (actions.filterMap SessionAction.routed?).head?
  { s.route router routed with
    connections := s.connections.modify c fun x =>
      x.to point actions (routed.map fun _ => s.serving.exchanges.length) }

def next (s : Conversations) : ConversationEvent → Option Conversations
  | .accept secure => some { s with connections := s.connections ++ [{ secure }] }
  | .resume c isOpen resumption =>
      if resumption.isHandled then none
      else
        (s.connections[c]?).bind fun x =>
          (coroutine tls x.secure isOpen x.point resumption).map fun (point, actions) =>
            s.goOn router c point actions
  | .handled c isOpen =>
      (s.connections[c]?).bind fun x => x.current.bind fun i =>
        (s.serving.exchanges[i]?).bind fun exchange =>
          exchange.progress.response.bind fun response =>
            (coroutine tls x.secure isOpen x.point (.handled (some response))).map
              fun (point, actions) => s.goOn router c point actions
  | .serve (.arrive _) => none
  | .serve event => (s.serving.next router event).map fun serving => { s with serving }

/-- All interleavings of the connections and of what they route. -/
def runs : System Conversations ConversationEvent where
  init s := (Serving.runs router).init s.serving ∧ s.connections = []
  step s event s' := s.next router tls event = some s'

end Conversations

/-! ## Sessions -/

section

variable {tls : TlsConfig} {secure isOpen : Bool} {p q : Point} {resumption : Resumption}
  {actions : List SessionAction}

theorem sessionStep_of_coroutine
    (h : coroutine tls secure isOpen p resumption = some (q, actions)) :
    SessionStep p actions q := by
  unfold coroutine at h
  split at h
  · exact sessionStep_of_tlsSession h
  · exact sessionStep_of_session h

/-- A session is resumed with a response when it waits for one, and sends it. -/
theorem coroutine_handled {response : Response}
    (h : coroutine tls secure isOpen p (.handled (some response)) = some (q, actions)) :
    p = .handling ∧ q ≠ .handling ∧ actions = [.write (sent tls secure response)] := by
  cases secure with
  | false =>
      cases p <;> cases h
      exact ⟨rfl, nofun, rfl⟩
  | true =>
      cases p <;> cases h
      exact ⟨rfl, nofun, by simp [sent]⟩

/-- Anything else leaves it waiting. -/
theorem coroutine_not_handling (hother : resumption.isHandled = false)
    (h : coroutine tls secure isOpen p resumption = some (q, actions)) : p ≠ .handling := by
  rintro rfl
  cases secure with
  | false => cases resumption <;> first | cases h | cases hother
  | true => cases resumption <;> first | cases h | cases hother

/-- When it routes a request, it waits for the response; otherwise it does neither. -/
theorem SessionStep.routes (h : SessionStep p actions q) (hp : p ≠ .handling) :
    actions.filterMap SessionAction.reply? = [] ∧
      (q = .handling ∧ (∃ request, actions.filterMap SessionAction.routed? = [request]) ∨
        q ≠ .handling ∧ actions.filterMap SessionAction.routed? = []) := by
  cases h with
  | prologue _ hq =>
      refine ⟨rfl, Or.inr ⟨?_, rfl⟩⟩
      rintro rfl
      rcases hq with hq | hq <;> cases hq
  | full request => exact ⟨rfl, Or.inl ⟨rfl, request, rfl⟩⟩
  | broken parsed => exact ⟨rfl, Or.inl ⟨rfl, parsed, rfl⟩⟩
  | respond => exact absurd rfl hp
  | again | overLimit | threw | stop => exact ⟨rfl, Or.inr ⟨nofun, rfl⟩⟩

end

theorem runSession_snoc {next : Bool → Point → Resumption → Option (Point × List SessionAction)}
    {p q r : Point} {inputs : List (Bool × Resumption)} {trace actions : List SessionAction}
    {isOpen : Bool} {resumption : Resumption} (h : runSession next p inputs = some (q, trace))
    (hlast : next isOpen q resumption = some (r, actions)) :
    runSession next p (inputs ++ [(isOpen, resumption)]) = some (r, trace ++ actions) := by
  induction inputs generalizing p trace with
  | nil =>
      cases h
      simp [runSession, hlast]
  | cons input rest ih =>
      obtain ⟨p', first, more, hstep, hrest, rfl⟩ := runSession_cons h
      simp [runSession, hstep, ih hrest]

/-! ## The invariant -/

/-- The requests of the connection, in the order in which it made them. -/
def Conversation.asked (x : Conversation) : List Nat := x.handled ++ x.current.toList

/-- A connection is in order.

* Its session is where `Session` or `TlsSession` takes it, and waits while a request is handled.
* What it has routed are its requests, and what it has written are the responses to them, each to
  the one whose turn it is.
* Each request came in when those before it had been answered. -/
structure Conversation.InOrder (tls : TlsConfig) (history : List (Invocation Request Response))
    (x : Conversation) : Prop where
  run : ∃ inputs, runSession (coroutine tls x.secure) .spawned inputs = some (x.point, x.trace)
  handling : x.point = .handling ↔ x.current ≠ none
  requests : List.Forall₂ (fun request i => ∃ y, history[i]? = some y ∧ y.request = request)
    (x.trace.filterMap SessionAction.routed?) x.asked
  responses : List.Forall₂ (fun response i => ∃ y answer, history[i]? = some y ∧
      y.answer = some answer ∧ response = sent tls x.secure answer)
    (x.trace.filterMap SessionAction.reply?) x.handled
  inTurn : x.asked.Pairwise fun i j => ∃ y, history[j]? = some y ∧ i ∈ y.earlier

/-- All of them are, and each request that was routed is one request of one connection. -/
structure Conversations.Orderly (router : Router) (tls : TlsConfig) (s : Conversations) : Prop where
  reachable : (Serving.runs router).Reachable s.serving
  inOrder : ∀ x ∈ s.connections, x.InOrder tls s.serving.history
  once : (s.connections.flatMap Conversation.asked).Perm (List.range s.serving.exchanges.length)

/-- No request is forgotten, and no response. -/
def Keeps (history history' : List (Invocation Request Response)) : Prop :=
  ∀ (i : Nat) (y : Invocation Request Response), history[i]? = some y →
    ∃ y' : Invocation Request Response, history'[i]? = some y' ∧ y'.request = y.request ∧
      y'.earlier = y.earlier ∧ ∀ answer, y.answer = some answer → y'.answer = some answer

section

variable {tls : TlsConfig} {history history' : List (Invocation Request Response)}
  {x : Conversation}

theorem keeps_append (more : List (Invocation Request Response)) :
    Keeps history (history ++ more) := by
  intro i y hy
  have hi := (List.getElem?_eq_some_iff.mp hy).1
  exact ⟨y, (List.getElem?_append_left hi).trans hy, rfl, rfl, fun _ h => h⟩

theorem Conversation.InOrder.keep (h : x.InOrder tls history) (hkeeps : Keeps history history') :
    x.InOrder tls history' where
  run := h.run
  handling := h.handling
  requests := h.requests.imp fun _ i ⟨y, hy, hrequest⟩ =>
    have ⟨y', hy', hsame, _⟩ := hkeeps i y hy
    ⟨y', hy', hsame.trans hrequest⟩
  responses := h.responses.imp fun _ i ⟨y, answer, hy, hanswer, hsent⟩ =>
    have ⟨y', hy', _, _, hkept⟩ := hkeeps i y hy
    ⟨y', answer, hy', hkept answer hanswer, hsent⟩
  inTurn := h.inTurn.imp fun {_ j} ⟨y, hy, hearlier⟩ =>
    have ⟨y', hy', _, hsame, _⟩ := hkeeps j y hy
    ⟨y', hy', hsame ▸ hearlier⟩

variable {isOpen : Bool} {resumption : Resumption} {q : Point} {actions : List SessionAction}

/-- A step that neither routes a request nor writes a response to one. -/
theorem Conversation.InOrder.quiet (h : x.InOrder tls history) (hcurrent : x.current = none)
    (hstep : coroutine tls x.secure isOpen x.point resumption = some (q, actions))
    (hq : q ≠ .handling) (hrequests : actions.filterMap SessionAction.routed? = [])
    (hresponses : actions.filterMap SessionAction.reply? = []) :
    (x.to q actions none).InOrder tls history := by
  obtain ⟨inputs, hrun⟩ := h.run
  refine ⟨⟨_, runSession_snoc hrun hstep⟩, by simp [Conversation.to, hq], ?_, ?_, ?_⟩
  · rw [Conversation.to, List.filterMap_append, hrequests]
    simpa [asked, hcurrent] using h.requests
  · rw [Conversation.to, List.filterMap_append, hresponses]
    simpa [hcurrent] using h.responses
  · simpa [Conversation.to, asked, hcurrent] using h.inTurn

/-- A step that routes a request, which finds all requests before it answered. -/
theorem Conversation.InOrder.routed (h : x.InOrder tls history) (hcurrent : x.current = none)
    (hstep : coroutine tls x.secure isOpen x.point resumption = some (.handling, actions))
    {y : Invocation Request Response}
    (hrequests : actions.filterMap SessionAction.routed? = [y.request])
    (hresponses : actions.filterMap SessionAction.reply? = [])
    (hearlier : ∀ i ∈ x.handled, i ∈ y.earlier) :
    (x.to .handling actions (some history.length)).InOrder tls (history ++ [y]) := by
  have hkept : x.InOrder tls (history ++ [y]) := h.keep (keeps_append [y])
  obtain ⟨inputs, hrun⟩ := h.run
  have hy : (history ++ [y])[history.length]? = some y := List.getElem?_concat_length
  have hasked : x.asked = x.handled := by simp [asked, hcurrent]
  have hnow : (x.to .handling actions (some history.length)).asked =
      x.asked ++ [history.length] := rfl
  refine ⟨⟨_, runSession_snoc hrun hstep⟩, by simp [Conversation.to], ?_, ?_, ?_⟩
  · rw [hnow, Conversation.to, List.filterMap_append, hrequests]
    exact List.rel_append hkept.requests (.cons ⟨y, hy, rfl⟩ .nil)
  · rw [Conversation.to, List.filterMap_append, hresponses]
    simpa [hcurrent] using hkept.responses
  · rw [hnow]
    refine List.pairwise_append.mpr ⟨hkept.inTurn, List.pairwise_singleton _ _, ?_⟩
    intro i hi j hj
    obtain rfl := List.mem_singleton.mp hj
    exact ⟨y, hy, hearlier i (hasked ▸ hi)⟩

/-- A step that writes the response to the request that was handled. -/
theorem Conversation.InOrder.responded (h : x.InOrder tls history) {i : Nat}
    (hcurrent : x.current = some i) {response : Response}
    (hstep : coroutine tls x.secure isOpen x.point resumption = some (q, actions))
    (hq : q ≠ .handling) (hactions : actions = [.write (sent tls x.secure response)])
    {y : Invocation Request Response} (hy : history[i]? = some y)
    (hanswer : y.answer = some response) :
    (x.to q actions none).InOrder tls history := by
  subst hactions
  obtain ⟨inputs, hrun⟩ := h.run
  have hasked : (x.to q [.write (sent tls x.secure response)] none).asked = x.asked :=
    List.append_nil _
  refine ⟨⟨_, runSession_snoc hrun hstep⟩, by simp [Conversation.to, hq], ?_, ?_, ?_⟩
  · rw [hasked, Conversation.to, List.filterMap_append]
    show List.Forall₂ _ (_ ++ []) _
    rw [List.append_nil]
    exact h.requests
  · rw [Conversation.to, List.filterMap_append, hcurrent]
    exact List.rel_append h.responses (.cons ⟨y, response, hy, hanswer, rfl⟩ .nil)
  · rw [hasked]
    exact h.inTurn

end

/-! ## Steps keep it -/

section

variable {α β : Type} {P : α → Prop} {f : α → α} {l : List α} {c : Nat} {x : α}

theorem forall_mem_modify (h : ∀ y ∈ l, P y) (hx : l[c]? = some x) (hf : P (f x)) :
    ∀ y ∈ l.modify c f, P y := by
  intro y hy
  obtain ⟨i, hi⟩ := List.getElem?_of_mem hy
  rw [List.getElem?_modify] at hi
  obtain ⟨z, hz, rfl⟩ := Option.map_eq_some_iff.mp hi
  split
  · next hci =>
      subst hci
      obtain rfl := Option.some.inj (hx.symm.trans hz)
      exact hf
  · exact h z (List.mem_of_getElem? hz)

theorem flatMap_modify_perm {g : α → List β} (new : List β) (hx : l[c]? = some x)
    (hf : g (f x) = g x ++ new) : ((l.modify c f).flatMap g).Perm (l.flatMap g ++ new) := by
  induction l generalizing c with
  | nil => cases hx
  | cons y rest ih =>
      cases c with
      | zero =>
          obtain rfl := Option.some.inj hx
          rw [List.modify_zero_cons, List.flatMap_cons, List.flatMap_cons, hf, List.append_assoc,
            List.append_assoc]
          exact List.perm_append_comm.append_left (g y)
      | succ c =>
          rw [List.modify_succ_cons, List.flatMap_cons, List.flatMap_cons, List.append_assoc]
          exact (ih hx).append_left (g y)

end

/-- A step of the requests forgets neither a request nor a response. -/
theorem Serving.step_keeps_history {router : Router} {s s' : Serving} {event : ServingEvent}
    (hs : Tracked s) (h : Step router s event s') : Keeps s.history s'.history := by
  intro i y hy
  obtain ⟨y', hy', hrequest, hearlier⟩ := step_grows h i y hy
  refine ⟨y', hy', hrequest, hearlier, fun answer hanswer => ?_⟩
  obtain ⟨x, hx, rfl⟩ := exchange_of_history hy
  obtain ⟨x', hx', rfl⟩ := exchange_of_history hy'
  have hp : (s.exchanges[i]?).map Exchange.progress = some (.answered answer) := by
    rw [hx]
    exact congrArg some (Progress.response_eq_some.mp hanswer)
  suffices hp' : (s'.exchanges[i]?).map Exchange.progress = some (.answered answer) by
    rw [hx'] at hp'
    exact Progress.response_eq_some.mpr (Option.some.inj hp')
  -- only a request that is not answered makes progress
  have hother : ∀ {j : Nat} {p : Progress}, (s.exchanges[j]?).map Exchange.progress = some p →
      p.response = none → j ≠ i := by
    rintro j p hj hnone rfl
    obtain rfl := Option.some.inj (hj.symm.trans hp)
    cases hnone
  cases h with
  | arrive request =>
      rw [List.getElem?_append_left (List.getElem?_eq_some_iff.mp hx).1]
      exact hp
  | @answer j z _ hz hrunning =>
      have hj : j ≠ i := hother (by rw [hz]; exact congrArg some hrunning) rfl
      exact progress_modifyExchange hp fun hji => absurd hji hj
  | @accept z job _ hz hrunning | @reject z job _ _ hz hrunning =>
      have hj : job.operation.request ≠ i :=
        hother (by rw [hz]; exact congrArg some hrunning) rfl
      exact progress_modifyExchange hp fun hji => absurd hji hj
  | worker => exact hp
  | operate => exact progress_modifyExchange hp fun _ _ h => h
  | deliver k c hc =>
      have hj : c.job.operation.request ≠ i :=
        hother (hs.suspended _ (waiting_posted (List.mem_of_getElem? hc))) rfl
      exact progress_modifyExchange hp fun hji => absurd hji hj

namespace Conversations

variable {router : Router} {tls : TlsConfig} {s s' : Conversations} {c : Nat} {x : Conversation}
  {q : Point} {actions : List SessionAction}

theorem Orderly.awaiting (h : Orderly router tls s) : Serving.Awaiting s.serving :=
  h.reachable.invariant (fun _ => Serving.awaiting_init) fun _ _ _ hs hstep => hs.next hstep

/-- What a connection has handled has been answered. -/
theorem Orderly.handled (h : Orderly router tls s) (hx : x ∈ s.connections) :
    ∀ i ∈ x.handled, i ∈ s.serving.answered := by
  intro i hi
  obtain ⟨n, hn, rfl⟩ := List.mem_iff_getElem.mp hi
  obtain ⟨-, hresponses⟩ := List.forall₂_iff_get.mp (h.inOrder x hx).responses
  obtain ⟨y, answer, hy, hanswer, -⟩ := hresponses n (by
    rw [(h.inOrder x hx).responses.length_eq]
    exact hn) hn
  obtain ⟨z, hz, rfl⟩ := Serving.exchange_of_history hy
  exact (h.awaiting.answered _).mpr ⟨z, answer, hz, Progress.response_eq_some.mp hanswer⟩

theorem Orderly.accept (h : Orderly router tls s) (secure : Bool) :
    Orderly router tls { s with connections := s.connections ++ [{ secure }] } where
  reachable := h.reachable
  inOrder := by
    refine List.forall_mem_append.mpr ⟨h.inOrder, List.forall_mem_singleton.mpr ?_⟩
    exact ⟨⟨[], rfl⟩, by simp, .nil, .nil, .nil⟩
  once := by
    rw [List.flatMap_append]
    simpa [Conversation.asked] using h.once

theorem Orderly.goOn (h : Orderly router tls s) (hx : s.connections[c]? = some x)
    (hrequests : actions.filterMap SessionAction.routed? = [])
    (horder : (x.to q actions none).InOrder tls s.serving.history) :
    Orderly router tls (s.goOn router c q actions) := by
  simp only [Conversations.goOn, hrequests, List.head?_nil, route, Option.map_none]
  refine ⟨h.reachable, forall_mem_modify h.inOrder hx horder, ?_⟩
  refine (flatMap_modify_perm [] hx ?_).trans ?_
  · rw [List.append_nil]
    exact List.append_nil _
  · rw [List.append_nil]
    exact h.once

theorem Orderly.ask (h : Orderly router tls s) (hx : s.connections[c]? = some x)
    {request : Request} (hrequests : actions.filterMap SessionAction.routed? = [request])
    (horder : (x.to q actions (some s.serving.history.length)).InOrder tls
      (s.serving.history ++ [{ request, earlier := s.serving.answered, answer := none }])) :
    Orderly router tls (s.goOn router c q actions) := by
  have hstep : (Serving.runs router).step s.serving (.arrive request) _ := rfl
  have hlength : s.serving.history.length = s.serving.exchanges.length := List.length_map _
  simp only [Conversations.goOn, hrequests, List.head?_cons, route, Option.map_some]
  refine ⟨h.reachable.step hstep, ?_, ?_⟩
  · refine forall_mem_modify (fun z hz => (h.inOrder z hz).keep ?_) hx ?_
    · exact Serving.step_keeps_history h.awaiting.tracked (Serving.step_of_next hstep)
    · rw [← hlength, Serving.history, List.map_append]
      exact horder
  · refine (flatMap_modify_perm [s.serving.exchanges.length] hx rfl).trans ?_
    rw [List.length_append, List.length_singleton, List.range_succ]
    exact h.once.append_right _

/-- A session that does not wait for its request goes on, and may route the next. -/
theorem Orderly.resume (h : Orderly router tls s) (hx : s.connections[c]? = some x)
    {isOpen : Bool} {resumption : Resumption} (hother : resumption.isHandled = false)
    (hstep : coroutine tls x.secure isOpen x.point resumption = some (q, actions)) :
    Orderly router tls (s.goOn router c q actions) := by
  have hmem : x ∈ s.connections := List.mem_of_getElem? hx
  have hpoint : x.point ≠ .handling := coroutine_not_handling hother hstep
  have hcurrent : x.current = none := by
    rwa [ne_eq, (h.inOrder x hmem).handling, not_not] at hpoint
  obtain ⟨hresponses, ⟨rfl, request, hrequests⟩ | ⟨hq, hrequests⟩⟩ :=
    (sessionStep_of_coroutine hstep).routes hpoint
  · refine h.ask hx hrequests ?_
    exact (h.inOrder x hmem).routed hcurrent hstep hrequests hresponses (h.handled hmem)
  · refine h.goOn hx hrequests ?_
    exact (h.inOrder x hmem).quiet hcurrent hstep hq hrequests hresponses

/-- A session whose request has been answered writes the response. -/
theorem Orderly.respond (h : Orderly router tls s) (hx : s.connections[c]? = some x) {i : Nat}
    (hcurrent : x.current = some i) {exchange : Exchange} {response : Response}
    (hexchange : s.serving.exchanges[i]? = some exchange)
    (hanswer : exchange.progress.response = some response) {isOpen : Bool}
    (hstep : coroutine tls x.secure isOpen x.point (.handled (some response)) =
      some (q, actions)) :
    Orderly router tls (s.goOn router c q actions) := by
  obtain ⟨-, hq, hactions⟩ := coroutine_handled hstep
  refine h.goOn hx (by rw [hactions]; rfl) ?_
  exact (h.inOrder x (List.mem_of_getElem? hx)).responded hcurrent hstep hq hactions
    (Serving.history_getElem? hexchange) hanswer

theorem Orderly.serve (h : Orderly router tls s) {event : ServingEvent} {serving : Serving}
    (hnew : ∀ request, event ≠ .arrive request)
    (hnext : s.serving.next router event = some serving) :
    Orderly router tls { s with serving } := by
  have hstep : Serving.Step router s.serving event serving := Serving.step_of_next hnext
  refine ⟨h.reachable.step hnext, fun z hz => ?_, ?_⟩
  · exact (h.inOrder z hz).keep (Serving.step_keeps_history h.awaiting.tracked hstep)
  · have hlength : serving.exchanges.length = s.serving.exchanges.length := by
      cases hstep with
      | arrive request => exact absurd rfl (hnew request)
      | worker => rfl
      | answer | accept | reject | operate | deliver =>
          simp [Serving.answer, Serving.modifyExchange, Serving.post, Serving.resume]
    show List.Perm _ (List.range serving.exchanges.length)
    rw [hlength]
    exact h.once

/-- The step lemma. -/
theorem Orderly.next (h : Orderly router tls s) {event : ConversationEvent}
    (hnext : s.next router tls event = some s') : Orderly router tls s' := by
  cases event with
  | accept secure =>
      obtain rfl := Option.some.inj hnext
      exact h.accept secure
  | resume c isOpen resumption =>
      simp only [Conversations.next] at hnext
      split at hnext
      · cases hnext
      · next hother =>
          obtain ⟨x, hx, hnext⟩ := Option.bind_eq_some_iff.mp hnext
          obtain ⟨⟨q, actions⟩, hstep, rfl⟩ := Option.map_eq_some_iff.mp hnext
          exact h.resume hx (by simpa using hother) hstep
  | handled c isOpen =>
      obtain ⟨x, hx, hnext⟩ := Option.bind_eq_some_iff.mp hnext
      obtain ⟨i, hcurrent, hnext⟩ := Option.bind_eq_some_iff.mp hnext
      obtain ⟨exchange, hexchange, hnext⟩ := Option.bind_eq_some_iff.mp hnext
      obtain ⟨response, hanswer, hnext⟩ := Option.bind_eq_some_iff.mp hnext
      obtain ⟨⟨q, actions⟩, hstep, rfl⟩ := Option.map_eq_some_iff.mp hnext
      exact h.respond hx hcurrent hexchange hanswer hstep
  | serve event =>
      cases event with
      | arrive request => cases hnext
      | _ =>
          simp only [Conversations.next] at hnext
          obtain ⟨serving, hserving, rfl⟩ := Option.map_eq_some_iff.mp hnext
          exact h.serve (fun _ hevent => by cases hevent) hserving

theorem orderly_init (h : (runs router tls).init s) : Orderly router tls s := by
  obtain ⟨hserving, hconnections⟩ := h
  have hexchanges : s.serving.exchanges = [] := by
    obtain ⟨m, queueCapacity, -, -, hs⟩ := hserving
    rw [hs]
  refine ⟨.init hserving, ?_, ?_⟩
  · rw [hconnections]
    exact List.forall_mem_nil _
  · rw [hconnections, hexchanges]
    exact .nil

/-- **Connections stay in order**: whatever the interleaving, each routed request is one request of
one connection, a connection is written the responses to its own requests in the order in which it
made them, and it makes no request before those before it have been answered. -/
theorem connections_in_order (h : (runs router tls).Reachable s) : Orderly router tls s :=
  h.invariant (fun _ => orderly_init) fun _ _ _ hs hstep => hs.next hstep

/-- Two clients, the second over TLS. The first asks for a product, the second for the health of the
service while that is on its way, and for the product after that. -/
def twoClients : List ConversationEvent :=
  let getMilk : Request := { method := .get, target := "/v1/products/1" }
  let getHealth : Request := { method := .get, target := "/healthz" }
  [.accept false, .accept true, .resume 0 true .move, .resume 1 true .move,
    .resume 0 true .replaceClose, .resume 1 true .replaceClose, .resume 1 true (.shook (some none)),
    .resume 0 true (.read (.complete getMilk)), .serve (.advance 0),
    .resume 1 true (.read (.complete getHealth)), .serve (.advance 1), .handled 1 true,
    .serve .wake, .resume 1 true (.wrote true), .resume 1 true (.read (.complete getMilk)),
    .serve (.operate []), .serve (.advance 2), .serve .wake, .serve (.operate []),
    .serve (.deliver 1), .serve (.advance 2), .handled 1 true, .serve (.deliver 0),
    .serve (.advance 0), .resume 1 true (.wrote true)]

def secureConfig : TlsConfig := { enableHsts := true }

def servedClients : Conversations :=
  System.play (next Serving.milkRouter secureConfig)
    { serving := Serving.opened 2, connections := [] } twoClients

/-- The second client has both its responses, and the first waits for its own. -/
theorem connections_in_order_clients :
    Orderly Serving.milkRouter secureConfig servedClients ∧
      (servedClients.connections.map fun x => (x.point, x.asked)) =
        [(.handling, [0]), (.reading, [1, 2])] ∧
      (servedClients.connections.map fun x => (x.trace.filterMap SessionAction.reply?).map
          fun response => (response.status, response.strictTransportSecurity.isSome)) =
        [[], [(.ok, true), (.ok, true)]] := by
  have hinit : (runs Serving.milkRouter secureConfig).init
      { serving := Serving.opened 2, connections := [] } :=
    ⟨Serving.opened_init (by decide), rfl⟩
  refine ⟨connections_in_order ?_, by decide +kernel, by decide +kernel⟩
  exact System.Reachable.play (fun _ _ _ h => h) (.init hinit) twoClients

end Conversations

end RecipesCore.Net
