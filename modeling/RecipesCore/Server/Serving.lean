import RecipesCore.App.DatabaseExecutor
import RecipesCore.Server.Router

/-!
# Concurrent requests over one executor

Any number of requests run as coroutines of `HandleAsync` over one `DatabaseExecutor`. A coroutine
runs until it submits an operation, and then waits for the completion that `boost::asio::post`
delivers, in whatever order the network threads take the posted handlers. What a request has done so
far is kept beside it, for the statements only: no step looks at it.

Whatever the executor's queue looks like, there is one thing left to do for a request: the `Task` in
`Remaining`. `step_effect` says once how a step changes it, and every invariant of the requests is
derived from that.
-/

namespace RecipesCore.Net

open RecipesCore.App RecipesCore.App.DatabaseExecutor
open RecipesCore.Db
open RecipesCore.Logic
open RecipesCore.Types

/-! ## State -/

/-- A submission: the request that makes it, what to run, and how the request goes on. -/
structure Ticket where
  request : Nat
  operation : ServiceOperation
  resume : Expected operation.Result → Task

def ticketWorkload : Workload Ticket DBManager (List StepOutcome) where
  Result ticket := ticket.operation.Result
  invoke ticket := serviceWorkload.invoke ticket.operation

abbrev Executor := DatabaseExecutor DBManager ticketWorkload.Result

inductive Progress where
  | running (task : Task)
  /-- At a `co_await`. -/
  | suspended
  | answered (response : Response)

def Progress.status : Progress → Option Status
  | .answered response => some response.status
  | _ => none

structure Exchange where
  request : Request
  progress : Progress
  /-- The requests that had been answered when this one came in. -/
  earlier : List Nat
  /-- An operation that this request submitted has changed a table. -/
  changed : Bool := false
  /-- The tables as the first of its operations that ran left them. -/
  left : Option Tables := none

structure Serving where
  executor : Executor
  /-- The completions that were posted and have not run yet. -/
  posted : List (Completion ticketWorkload.Result) := []
  exchanges : List Exchange := []
  answered : List Nat := []

/-! ## Steps -/

inductive ServingEvent where
  | arrive (request : Request)
  /-- A running coroutine goes on to its next `co_await` or to its end. -/
  | advance (i : Nat)
  | wake
  | operate (environment : List StepOutcome)
  /-- The posted handler at this place runs. -/
  | deliver (k : Nat)
  | stop

/-- The completions that a step of the executor made. -/
def newlyCompleted (e e' : Executor) : List (Completion ticketWorkload.Result) :=
  e'.rejected.drop e.rejected.length ++ e'.finished.drop e.finished.length

/-- The executor has gone on; what it completed is posted. -/
def Serving.withExecutor (s : Serving) (executor : Executor) : Serving :=
  { s with executor, posted := s.posted ++ newlyCompleted s.executor executor }

def Exchange.to (progress : Progress) (x : Exchange) : Exchange := { x with progress }

/-- Note that an operation of the request ran. -/
def Exchange.ran (before after : Tables) (x : Exchange) : Exchange :=
  { x with changed := x.changed || decide (after ≠ before), left := x.left.or (some after) }

namespace Serving

def modifyExchange (s : Serving) (i : Nat) (f : Exchange → Exchange) : Serving :=
  { s with exchanges := s.exchanges.modify i f }

/-- `co_return`. -/
def answer (s : Serving) (i : Nat) (response : Response) : Serving :=
  { s.modifyExchange i (Exchange.to (.answered response)) with answered := s.answered ++ [i] }

/-- `co_await database_executor_->AsyncSubmit(…)`. -/
def submit (s : Serving) (ticket : Ticket) : Serving :=
  (s.withExecutor (s.executor.asyncSubmit ticket)).modifyExchange ticket.request
    (Exchange.to .suspended)

/-- The worker ran the operation of `job`. -/
def operated (s : Serving) (job : Job Ticket) (executor : Executor) : Serving :=
  (s.withExecutor executor).modifyExchange job.operation.request
    (Exchange.ran s.executor.service.db.tables executor.service.db.tables)

def resume (s : Serving) (k : Nat) (c : Completion ticketWorkload.Result) : Serving :=
  { s.modifyExchange c.job.operation.request
      (Exchange.to (.running (c.job.operation.resume c.result))) with
    posted := s.posted.eraseIdx k }

variable (router : Router)

def next (s : Serving) : ServingEvent → Option Serving
  | .arrive request =>
      some { s with exchanges := s.exchanges ++
        [{ request, progress := .running (router.handleAsync request), earlier := s.answered }] }
  | .advance i =>
      match (s.exchanges[i]?).map Exchange.progress with
      | some (.running (.done response)) => some (s.answer i response)
      | some (.running (.submit operation resume)) =>
          some (s.submit { request := i, operation, resume })
      | _ => none
  | .wake => s.executor.wake.map s.withExecutor
  | .operate environment =>
      match s.executor.worker with
      | .running job =>
          (s.executor.operate ticketWorkload.invoke environment).map (s.operated job)
      | _ => none
  | .deliver k => (s.posted[k]?).map (s.resume k)
  | .stop => some { s with executor := s.executor.stop }

/-- All interleavings, over a database that earlier runs of the program left. -/
def runs : System Serving ServingEvent where
  init s := ∃ m queueCapacity, managerRuns.Reachable m ∧ 0 < queueCapacity ∧
    s = { executor := { service := DBManager.onTables m.db.tables m.db.sequences, queueCapacity } }
  step s event s' := s.next router event = some s'

/-! ## Which exchange waits for what -/

/-- The submissions on their way: with the worker, queued, or completed and posted. -/
def waiting (s : Serving) : List Nat :=
  s.executor.pending.map (fun job => job.operation.request) ++
    s.posted.map fun c => c.job.operation.request

/-- Each request has at most one submission on its way, and waits for it. -/
structure Tracked (s : Serving) : Prop where
  once : s.waiting.Nodup
  suspended : ∀ i ∈ s.waiting, (s.exchanges[i]?).map Exchange.progress = some .suspended

/-- What is left to do for the exchange `x` at place `i`. -/
inductive Remaining (s : Serving) (i : Nat) (x : Exchange) : Task → Prop where
  | running {task : Task} : x.progress = .running task → Remaining s i x task
  | pending {job : Job Ticket} : x.progress = .suspended →
      job ∈ s.executor.pending → job.operation.request = i →
      Remaining s i x (.submit job.operation.operation job.operation.resume)
  | posted {c : Completion ticketWorkload.Result} : x.progress = .suspended → c ∈ s.posted →
      c.job.operation.request = i → Remaining s i x (c.job.operation.resume c.result)
  | answered {response : Response} : x.progress = .answered response →
      Remaining s i x (.done response)

variable {router} {s s' : Serving} {event : ServingEvent} {i : Nat} {x x' : Exchange}
  {task : Task}

/-! ## What a step does -/

def post (s : Serving) (c : Completion ticketWorkload.Result) : Serving :=
  { s with posted := s.posted ++ [c] }

/-- What can happen in one step, said by the jobs at hand. -/
inductive Step (router : Router) (s : Serving) : ServingEvent → Serving → Prop where
  | arrive (request : Request) : Step router s (.arrive request)
      { s with exchanges := s.exchanges ++
        [{ request, progress := .running (router.handleAsync request), earlier := s.answered }] }
  | answer {i : Nat} {x : Exchange} {response : Response} : s.exchanges[i]? = some x →
      x.progress = .running (.done response) → Step router s (.advance i) (s.answer i response)
  | accept {x : Exchange} (job : Job Ticket) (executor : Executor) :
      s.exchanges[job.operation.request]? = some x →
      x.progress = .running (.submit job.operation.operation job.operation.resume) →
      s.executor.Admits → executor.pending = s.executor.pending ++ [job] →
      executor.service = s.executor.service →
      Step router s (.advance job.operation.request)
        ({ s with executor }.modifyExchange job.operation.request (Exchange.to .suspended))
  | reject {x : Exchange} (job : Job Ticket) (error : Error) (executor : Executor) :
      s.exchanges[job.operation.request]? = some x →
      x.progress = .running (.submit job.operation.operation job.operation.resume) →
      ¬ s.executor.Admits → executor.pending = s.executor.pending →
      executor.service = s.executor.service →
      Step router s (.advance job.operation.request)
        (({ s with executor }.post ⟨job, .error error⟩).modifyExchange job.operation.request
          (Exchange.to .suspended))
  | worker {event : ServingEvent} (executor : Executor) :
      event = .wake ∨ event = .stop → executor.pending = s.executor.pending →
      executor.service = s.executor.service → Step router s event { s with executor }
  | operate {environment : List StepOutcome} (job : Job Ticket) (executor : Executor) :
      s.executor.worker = .running job → s.executor.pending = job :: executor.pending →
      executor.service = (job.operation.operation.call environment s.executor.service).2 →
      Step router s (.operate environment)
        (({ s with executor }.post
            ⟨job, (job.operation.operation.call environment s.executor.service).1⟩).modifyExchange
          job.operation.request
          (Exchange.ran s.executor.service.db.tables executor.service.db.tables))
  | deliver (k : Nat) (c : Completion ticketWorkload.Result) : s.posted[k]? = some c →
      Step router s (.deliver k) (s.resume k c)

theorem submit_step (ticket : Ticket) (hx : s.exchanges[ticket.request]? = some x)
    (hrunning : x.progress = .running (.submit ticket.operation ticket.resume)) :
    Step router s (.advance ticket.request) (s.submit ticket) := by
  let job : Job Ticket := ⟨s.executor.submissions, .handler, ticket⟩
  by_cases hadmits : s.executor.Admits
  · have heq : s.executor.asyncSubmit ticket = { s.executor with
        submissions := s.executor.submissions + 1
        queue := s.executor.queue ++ [job]
        accepted := s.executor.accepted ++ [job] } := enqueue_of_admits hadmits
    have hstep : Step router s (.advance job.operation.request) _ :=
      .accept job (s.executor.asyncSubmit ticket) hx hrunning hadmits (by simp [heq, pending, job])
        (by simp [heq])
    have hnone : newlyCompleted s.executor (s.executor.asyncSubmit ticket) = [] := by
      simp [newlyCompleted, heq]
    simpa only [submit, withExecutor, hnone, List.append_nil] using hstep
  · obtain ⟨error, -, heq⟩ : ∃ error, _ ∧ s.executor.asyncSubmit ticket = { s.executor with
        submissions := s.executor.submissions + 1
        rejected := s.executor.rejected ++ [⟨job, .error error⟩] } :=
      enqueue_of_not_admits hadmits
    have hstep : Step router s (.advance job.operation.request) _ :=
      .reject job error (s.executor.asyncSubmit ticket) hx hrunning hadmits
        (by simp [heq, pending]) (by simp [heq])
    have hone : newlyCompleted s.executor (s.executor.asyncSubmit ticket) =
        [⟨job, .error error⟩] := by simp [newlyCompleted, heq]
    simpa only [submit, withExecutor, hone, post] using hstep

/-- **Every step is one of these.** -/
theorem step_of_next (h : s.next router event = some s') : Step router s event s' := by
  cases event with
  | arrive request =>
      obtain rfl := Option.some.inj h
      exact .arrive request
  | advance i =>
      simp only [next] at h
      cases hx : s.exchanges[i]? with
      | none => simp [hx] at h
      | some x =>
          simp only [hx, Option.map_some] at h
          split at h
          · next response hp =>
              obtain rfl := Option.some.inj h
              exact .answer hx (Option.some.inj hp)
          · next operation resume hp =>
              obtain rfl := Option.some.inj h
              exact submit_step { request := i, operation, resume } hx (Option.some.inj hp)
          · cases h
  | wake =>
      obtain ⟨executor, hwake, rfl⟩ := Option.map_eq_some_iff.mp h
      have hpending := wake_pending hwake
      obtain ⟨-, ⟨-, -, rfl⟩ | ⟨job, queue, -, rfl⟩⟩ := wake_eq_some hwake
      all_goals
        simp only [withExecutor, newlyCompleted, List.drop_length, List.append_nil]
        exact .worker _ (Or.inl rfl) hpending rfl
  | operate environment =>
      simp only [next] at h
      split at h
      · next job hworker =>
          obtain ⟨executor, hoperate, rfl⟩ := Option.map_eq_some_iff.mp h
          obtain ⟨job', hworker', heq⟩ := operate_eq_some hoperate
          obtain rfl : job = job' := by simpa [hworker] using hworker'
          have hstep : Step router s (.operate environment) _ :=
            .operate job executor hworker (by simp [heq, pending, hworker, Worker.job])
              (by rw [heq]; rfl)
          have hone : newlyCompleted s.executor executor =
              [⟨job, (job.operation.operation.call environment s.executor.service).1⟩] := by
            simp only [newlyCompleted, heq, List.drop_length, List.drop_left, List.nil_append]
            rfl
          simpa only [operated, withExecutor, hone, post] using hstep
      · cases h
  | deliver k =>
      obtain ⟨c, hc, rfl⟩ := Option.map_eq_some_iff.mp h
      exact .deliver k c hc
  | stop =>
      obtain rfl := Option.some.inj h
      exact .worker _ (Or.inr rfl) rfl rfl

theorem getElem?_modifyExchange {j : Nat} {f : Exchange → Exchange}
    (h : (s.modifyExchange j f).exchanges[i]? = some x') :
    ∃ x, s.exchanges[i]? = some x ∧ x' = if j = i then f x else x := by
  simp only [modifyExchange, List.getElem?_modify] at h
  obtain ⟨x, hx, rfl⟩ := Option.map_eq_some_iff.mp h
  exact ⟨x, hx, by split <;> rfl⟩

theorem progress_modifyExchange {j : Nat} {f : Exchange → Exchange} {p : Progress}
    (h : (s.exchanges[i]?).map Exchange.progress = some p)
    (hf : j = i → ∀ x, x.progress = p → (f x).progress = p) :
    ((s.modifyExchange j f).exchanges[i]?).map Exchange.progress = some p := by
  obtain ⟨x, hx, hp⟩ := Option.map_eq_some_iff.mp h
  simp only [modifyExchange, List.getElem?_modify, hx, Option.map_eq_map, Option.map_some]
  split
  · next hji => rw [hf hji x hp]
  · exact congrArg some hp

/-! ## One submission at a time -/

theorem Tracked.suspended_of (h : Tracked s) (hx : s.exchanges[i]? = some x)
    (hi : i ∈ s.waiting) : x.progress = .suspended := by
  have := h.suspended i hi
  rw [hx] at this
  exact Option.some.inj this

theorem Tracked.not_waiting (h : Tracked s) (hx : s.exchanges[i]? = some x)
    (hp : x.progress = .running task) : i ∉ s.waiting := by
  intro hi
  cases (h.suspended_of hx hi).symm.trans hp

/-- A running request submits: it is suspended, and its submission is on its way. -/
theorem Tracked.submit (h : Tracked s) (hx : s.exchanges[i]? = some x)
    (hp : x.progress = .running task) {t : Serving} (hexchanges : t.exchanges = s.exchanges)
    (hwaiting : t.waiting.Perm (i :: s.waiting)) :
    Tracked (t.modifyExchange i (Exchange.to .suspended)) where
  once := hwaiting.nodup_iff.mpr (List.nodup_cons.mpr ⟨h.not_waiting hx hp, h.once⟩)
  suspended j hj := by
    rcases List.mem_cons.mp (hwaiting.mem_iff.mp hj) with rfl | hj
    · simp [modifyExchange, hexchanges, hx, Exchange.to]
    · refine progress_modifyExchange ?_ fun _ _ _ => rfl
      rw [hexchanges]
      exact h.suspended j hj

theorem Tracked.step (h : Tracked s) (hstep : Step router s event s') : Tracked s' := by
  cases hstep with
  | arrive request =>
      refine ⟨h.once, fun i hi => ?_⟩
      have hsuspended := h.suspended i hi
      obtain ⟨x, hx, -⟩ := Option.map_eq_some_iff.mp hsuspended
      -- the new exchange stands behind all that wait
      have hlt := (List.getElem?_eq_some_iff.mp hx).1
      show ((s.exchanges ++ _)[i]?).map Exchange.progress = some .suspended
      rwa [List.getElem?_append_left hlt]
  | answer hx hp =>
      refine ⟨h.once, fun i hi => progress_modifyExchange (h.suspended i hi) ?_⟩
      rintro rfl
      exact absurd hi (h.not_waiting hx hp)
  | accept job executor hx hp _ hpending _ =>
      refine h.submit hx hp rfl ?_
      simp only [waiting, hpending, List.map_append, List.map_cons, List.map_nil, List.append_assoc,
        List.singleton_append]
      exact List.perm_middle
  | reject job error executor hx hp _ hpending _ =>
      refine h.submit hx hp rfl ?_
      simp only [waiting, post, hpending, List.map_append, List.map_cons, List.map_nil]
      rw [← List.append_assoc]
      exact List.perm_append_singleton _ _
  | worker executor _ hpending _ =>
      have hwaiting : waiting { s with executor } = s.waiting := by
        simp only [waiting, hpending]
      exact ⟨hwaiting ▸ h.once, fun i hi => h.suspended i (hwaiting ▸ hi)⟩
  | operate job executor _ hpending _ =>
      have hwaiting : ∀ result f, s.waiting.Perm (waiting
          (({ s with executor }.post ⟨job, result⟩).modifyExchange job.operation.request f)) := by
        intro result f
        simp only [waiting, post, modifyExchange, hpending, List.map_append, List.map_cons,
          List.map_nil, List.cons_append]
        rw [← List.append_assoc]
        exact (List.perm_append_singleton _ _).symm
      exact ⟨(hwaiting _ _).nodup_iff.mp h.once, fun i hi =>
        progress_modifyExchange (h.suspended i ((hwaiting _ _).mem_iff.mpr hi)) fun _ _ hx => hx⟩
  | deliver k c hc =>
      have hwaiting : s.waiting.Perm (c.job.operation.request :: (s.resume k c).waiting) := by
        obtain ⟨hk, rfl⟩ := List.getElem?_eq_some_iff.mp hc
        simp only [waiting, resume, modifyExchange]
        refine List.Perm.trans (List.Perm.append_left _ ?_) List.perm_middle
        exact (List.getElem_cons_eraseIdx_perm hk).symm.map fun c => c.job.operation.request
      obtain ⟨hnot, honce⟩ := List.nodup_cons.mp (hwaiting.nodup_iff.mp h.once)
      refine ⟨honce, fun i hi => ?_⟩
      have hi' := hwaiting.mem_iff.mpr (List.mem_cons_of_mem _ hi)
      refine progress_modifyExchange (h.suspended i hi') ?_
      rintro rfl
      exact absurd hi hnot

/-! ## What a step does to what is left -/

theorem waiting_pending {job : Job Ticket} (h : job ∈ s.executor.pending) :
    job.operation.request ∈ s.waiting :=
  List.mem_append_left _ (List.mem_map_of_mem h)

theorem waiting_posted {c : Completion ticketWorkload.Result} (h : c ∈ s.posted) :
    c.job.operation.request ∈ s.waiting :=
  List.mem_append_right _ (List.mem_map_of_mem h)

/-- What is left for a request depends on its own submissions only. -/
theorem Remaining.congr (h : Remaining s' i x task)
    (hpending : ∀ job ∈ s'.executor.pending, job.operation.request = i → job ∈ s.executor.pending)
    (hposted : ∀ c ∈ s'.posted, c.job.operation.request = i → c ∈ s.posted) :
    Remaining s i x task := by
  cases h with
  | running hp => exact .running hp
  | pending hp hjob hi => exact .pending hp (hpending _ hjob hi) hi
  | posted hp hc hi => exact .posted hp (hposted _ hc hi) hi
  | answered hp => exact .answered hp

/-- Where the task that is left for an exchange comes from. -/
inductive Effect (router : Router) (s : Serving) (event : ServingEvent) (i : Nat) (x' : Exchange) :
    Task → Prop where
  | same {x : Exchange} {task : Task} : s.exchanges[i]? = some x → Remaining s i x task →
      x' = x.to x'.progress → Effect router s event i x' task
  | arrived {request : Request} : event = .arrive request → i = s.exchanges.length →
      x' = { request, progress := .running (router.handleAsync request), earlier := s.answered } →
      Effect router s event i x' (router.handleAsync request)
  | rejected {x : Exchange} {operation : ServiceOperation}
      {resume : Expected operation.Result → Task} (error : Error) : event = .advance i →
      s.exchanges[i]? = some x → x.progress = .running (.submit operation resume) →
      ¬ s.executor.Admits → x' = x.to x'.progress →
      Effect router s event i x' (resume (.error error))
  | executed {x : Exchange} {job : Job Ticket} {environment : List StepOutcome} :
      event = .operate environment → s.executor.worker = .running job →
      job.operation.request = i → s.exchanges[i]? = some x →
      Remaining s i x (.submit job.operation.operation job.operation.resume) →
      x' = x.ran s.executor.service.db.tables
        (job.operation.operation.call environment s.executor.service).2.db.tables →
      Effect router s event i x'
        (job.operation.resume (job.operation.operation.call environment s.executor.service).1)

/-- A running request submitted: what is left is its submission, wherever that is now. -/
theorem Remaining.of_submit (hs : Tracked s) (hx : s.exchanges[i]? = some x)
    (hp : x.progress = .running task) {t : Serving} {task' : Task}
    (h : Remaining t i (x.to .suspended) task') :
    (∃ job ∈ t.executor.pending, job ∉ s.executor.pending ∧ job.operation.request = i ∧
      task' = .submit job.operation.operation job.operation.resume) ∨
    ∃ c ∈ t.posted, c ∉ s.posted ∧ c.job.operation.request = i ∧
      task' = c.job.operation.resume c.result := by
  have hnot := hs.not_waiting hx hp
  cases h with
  | running hp' => simp [Exchange.to] at hp'
  | @pending job _ hjob hi =>
      exact Or.inl ⟨job, hjob, fun hmem => hnot (hi ▸ waiting_pending hmem), hi, rfl⟩
  | @posted c _ hc hi =>
      exact Or.inr ⟨c, hc, fun hmem => hnot (hi ▸ waiting_posted hmem), hi, rfl⟩
  | answered hp' => simp [Exchange.to] at hp'

/-- The operation that a request waited for ran: what is left is to go on with its result. -/
theorem Remaining.of_operated (hs : Tracked s) {job : Job Ticket} {executor : Executor}
    {result : Expected job.operation.operation.Result} {t : Serving}
    (h : Remaining t job.operation.request x task) (hsuspended : x.progress = .suspended)
    (hpending : s.executor.pending = job :: executor.pending) (hexecutor : t.executor = executor)
    (hposted : t.posted = s.posted ++ [(⟨job, result⟩ : Completion ticketWorkload.Result)]) :
    task = job.operation.resume result := by
  have honce := hs.once
  simp only [waiting, hpending, List.map_cons, List.cons_append] at honce
  -- nothing else of this request is on its way
  have hothers := (List.nodup_cons.mp honce).1
  cases h with
  | running hp => cases hsuspended.symm.trans hp
  | answered hp => cases hsuspended.symm.trans hp
  | pending _ hjob hi =>
      rw [hexecutor] at hjob
      exact absurd (List.mem_append_left _ (hi ▸ List.mem_map_of_mem hjob)) hothers
  | posted _ hc hi =>
      rw [hposted] at hc
      rcases List.mem_append.mp hc with hc | hc
      · exact absurd (List.mem_append_right _ (hi ▸ List.mem_map_of_mem hc)) hothers
      · obtain rfl := List.mem_singleton.mp hc
        rfl

/-- What a step adds for one request is nothing to the others. -/
theorem mem_of_mem_snoc {α : Type} (request : α → Nat) {j : Nat} {l : List α} {a b : α}
    (h : b ∈ l ++ [a]) (ha : request a = j) (hb : request b ≠ j) : b ∈ l := by
  refine (List.mem_append.mp h).resolve_right fun hnew => hb ?_
  rw [← ha, List.mem_singleton.mp hnew]

/-- A step that changes one exchange leaves the others what was left for them. -/
theorem effect_of_modify {j : Nat} {f : Exchange → Exchange}
    (hx' : s'.exchanges[i]? = some x') (hremaining : Remaining s' i x' task)
    (hexchanges : s'.exchanges = (s.modifyExchange j f).exchanges)
    (hpending : ∀ job ∈ s'.executor.pending, job.operation.request ≠ j →
      job ∈ s.executor.pending)
    (hposted : ∀ c ∈ s'.posted, c.job.operation.request ≠ j → c ∈ s.posted)
    (hself : ∀ x, s.exchanges[j]? = some x → Remaining s' j (f x) task →
      Effect router s event j (f x) task) :
    Effect router s event i x' task := by
  rw [hexchanges] at hx'
  obtain ⟨x, hx, rfl⟩ := getElem?_modifyExchange hx'
  by_cases hj : j = i
  · subst hj
    rw [if_pos rfl] at hremaining ⊢
    exact hself x hx hremaining
  · rw [if_neg hj] at hremaining ⊢
    refine .same hx (hremaining.congr (fun job hjob hi => ?_) fun c hc hi => ?_) rfl
    · exact hpending job hjob fun hjob => hj (hjob.symm.trans hi)
    · exact hposted c hc fun hc => hj (hc.symm.trans hi)

/-- **A step executes or rejects one submission, or leaves what is left as it is.** -/
theorem step_effect (hs : Tracked s) (h : s.next router event = some s')
    (hx' : s'.exchanges[i]? = some x') (hremaining : Remaining s' i x' task) :
    Effect router s event i x' task := by
  cases step_of_next h with
  | arrive request =>
      rw [List.getElem?_append] at hx'
      split at hx'
      · exact .same hx' (hremaining.congr (fun _ h _ => h) fun _ h _ => h) rfl
      · next hge =>
          rw [List.getElem?_singleton] at hx'
          split at hx'
          · obtain rfl := Option.some.inj hx'
            cases hremaining with
            | running hp =>
                cases hp
                exact .arrived rfl (by omega) rfl
            | pending hp | posted hp | answered hp => cases hp
          · cases hx'
  | @answer j y response hy hp =>
      refine effect_of_modify hx' hremaining rfl (fun _ h _ => h) (fun _ h _ => h) ?_
      intro x hx hremaining
      obtain rfl := Option.some.inj (hx.symm.trans hy)
      cases hremaining with
      | answered hp' =>
          cases hp'
          exact .same hx (.running hp) rfl
      | running hp' | pending hp' | posted hp' => cases hp'
  | accept job executor hy hp hadmits hpending _ =>
      refine effect_of_modify hx' hremaining rfl ?_ (fun _ h _ => h) ?_
      -- the job at the end of the queue is the new one of this exchange
      · intro job' hjob' hne
        have hjob' : job' ∈ s.executor.pending ++ [job] := hpending ▸ hjob'
        exact mem_of_mem_snoc (fun job => job.operation.request) hjob' rfl hne
      · intro x hx hremaining
        obtain rfl := Option.some.inj (hx.symm.trans hy)
        obtain ⟨job', hjob', hnew, -, rfl⟩ | ⟨c, hc, hnew, -⟩ :=
          Remaining.of_submit hs hx hp hremaining
        · have hjob' : job' ∈ s.executor.pending ++ [job] := hpending ▸ hjob'
          obtain rfl := List.mem_singleton.mp ((List.mem_append.mp hjob').resolve_left hnew)
          exact .same hx (.running hp) rfl
        · exact absurd hc hnew
  | reject job error executor hy hp hadmits hpending _ =>
      refine effect_of_modify hx' hremaining rfl (fun job' hjob' _ => hpending ▸ hjob') ?_ ?_
      · intro c hc hne
        exact mem_of_mem_snoc (fun c => c.job.operation.request) hc rfl hne
      · intro x hx hremaining
        obtain rfl := Option.some.inj (hx.symm.trans hy)
        obtain ⟨job', hjob', hnew, -⟩ | ⟨c, hc, hnew, -, rfl⟩ :=
          Remaining.of_submit hs hx hp hremaining
        · exact absurd (hpending ▸ hjob' : job' ∈ s.executor.pending) hnew
        · obtain rfl := List.mem_singleton.mp ((List.mem_append.mp hc).resolve_left hnew)
          exact .rejected error rfl hx hp hadmits rfl
  | worker executor _ hpending _ =>
      exact .same hx' (hremaining.congr (fun job hjob _ => hpending ▸ hjob) fun _ h _ => h) rfl
  | @operate environment job executor hworker hpending hservice =>
      refine effect_of_modify hx' hremaining rfl ?_ ?_ ?_
      · intro job' hjob' _
        rw [hpending]
        exact List.mem_cons_of_mem _ hjob'
      · intro c hc hne
        exact mem_of_mem_snoc (fun c => c.job.operation.request) hc rfl hne
      · intro x hx hremaining
        have hjob : job ∈ s.executor.pending := by simp [hpending]
        -- a suspended exchange waits in one place only, so it waits for this job
        have hsuspended := hs.suspended_of hx (waiting_pending hjob)
        obtain rfl := Remaining.of_operated hs hremaining hsuspended hpending rfl rfl
        exact .executed rfl hworker rfl hx (.pending hsuspended hjob rfl) (by rw [hservice])
  | deliver k c hc =>
      refine effect_of_modify hx' hremaining rfl (fun _ h _ => h)
        (fun c' hc' _ => List.mem_of_mem_eraseIdx hc') ?_
      intro x hx hremaining
      have hmem : c ∈ s.posted := List.mem_of_getElem? hc
      have hsuspended := hs.suspended_of hx (waiting_posted hmem)
      cases hremaining with
      | running hp =>
          cases hp
          exact .same hx (.posted hsuspended hmem rfl) rfl
      | pending hp | posted hp | answered hp => cases hp

/-! ## Reachable states -/

/-- A server that has just been started over the kitchen's database. -/
def opened (queueCapacity : Nat) : Serving :=
  { executor := {
      service := DBManager.onTables (afterCalls kitchenCalls).db.tables
        (afterCalls kitchenCalls).db.sequences
      queueCapacity } }

theorem opened_init {queueCapacity : Nat} (h : 0 < queueCapacity) :
    (runs router).init (opened queueCapacity) :=
  ⟨_, queueCapacity, reachable_afterCalls kitchenCalls, h, rfl⟩

theorem reachable_opened {queueCapacity : Nat} (h : 0 < queueCapacity)
    (events : List ServingEvent) :
    (runs router).Reachable (System.play (next router) (opened queueCapacity) events) :=
  System.Reachable.play (fun _ _ _ h => h) (.init (opened_init h)) events

/-- Nothing is on its way before the first request. -/
theorem tracked_start {service : DBManager} {queueCapacity : Nat} :
    Tracked { executor := { service, queueCapacity } } :=
  ⟨List.nodup_nil, by simp [waiting, pending, Worker.job]⟩

/-- Only the worker touches the manager, by running the operation at hand. -/
theorem service_of_step (h : s.next router event = some s') :
    s'.executor.service = s.executor.service ∨
      ∃ environment job, event = .operate environment ∧ s.executor.worker = .running job ∧
        s'.executor.service = (job.operation.operation.call environment s.executor.service).2 := by
  cases step_of_next h with
  | arrive => exact Or.inl rfl
  | answer => exact Or.inl rfl
  | accept _ _ _ _ _ _ hservice => exact Or.inl hservice
  | reject _ _ _ _ _ _ _ hservice => exact Or.inl hservice
  | worker _ _ _ hservice => exact Or.inl hservice
  | operate job _ hworker _ hservice => exact Or.inr ⟨_, job, rfl, hworker, hservice⟩
  | deliver => exact Or.inl rfl

/-- **The executor of a running server is one of the executors of `DatabaseExecutor.runs`**, so what
holds of those holds of it. -/
theorem executor_reachable (h : (runs router).Reachable s) :
    (DatabaseExecutor.runs ticketWorkload).Reachable s.executor := by
  induction h with
  | init h =>
      obtain ⟨m, queueCapacity, -, hpos, rfl⟩ := h
      exact .init ⟨_, queueCapacity, hpos, rfl⟩
  | @step s s' event _ hstep ih =>
      cases event with
      | arrive request => cases hstep; exact ih
      | advance i =>
          simp only [runs, next] at hstep
          split at hstep
          · cases hstep; exact ih
          · next operation resume _ =>
              cases hstep
              exact .step ih (l := .asyncSubmit { request := i, operation, resume }) rfl
          · cases hstep
      | wake =>
          obtain ⟨executor, hwake, rfl⟩ := Option.map_eq_some_iff.mp hstep
          exact .step ih (l := .wake) hwake
      | operate environment =>
          simp only [runs, next] at hstep
          split at hstep
          · obtain ⟨executor, hoperate, rfl⟩ := Option.map_eq_some_iff.mp hstep
            exact .step ih (l := .operate environment) hoperate
          · cases hstep
      | deliver k =>
          obtain ⟨c, -, rfl⟩ := Option.map_eq_some_iff.mp hstep
          exact ih
      | stop => cases hstep; exact .step ih (l := .stop) rfl

end Serving

end RecipesCore.Net
