import Mathlib.Data.List.Perm.Subperm
import Mathlib.Data.List.Range
import RecipesCore.App.Runs

/-!
# `app::DatabaseExecutor`

One worker thread, a bounded queue and a stop flag. `Submit` and `AsyncSubmit` hold the mutex while
they look at the flag and the queue, so each is one step, as is the worker's move from the queue to
an operation. The operation itself runs outside the mutex: others submit while it runs, and nothing
but the worker touches the service.

The executor is generic in what is submitted: a `Workload` says what running an operation does to
the service, for an `ε` that stands for what the outside world does meanwhile. The last fields of
the state are its history, which no step reads.
-/

namespace RecipesCore.App

open RecipesCore.Logic

/-- How an invoked operation ends. -/
inductive Outcome (α : Type) where
  | returned (result : Expected α)
  /-- `catch (const std::exception& exception)`. -/
  | exception (what : String)
  /-- `catch (...)`. -/
  | unknownException

/-- What the worker completes the submission with. -/
def Outcome.completion {α : Type} : Outcome α → Expected α
  | .returned result => result
  | .exception what => .error ⟨.storage, what⟩
  | .unknownException => .error ⟨.storage, "Unknown database worker error"⟩

structure Workload (ω σ ε : Type) where
  Result : ω → Type
  invoke : (operation : ω) → ε → σ → Outcome (Result operation) × σ

/-- Where a result goes: into the promise of a future, or to a handler posted to its executor. -/
inductive Completes where
  | promise
  | handler
  deriving DecidableEq, Repr

/-- A queued closure; `submission` tells the submissions apart. -/
structure Job (ω : Type) where
  submission : Nat
  completes : Completes
  operation : ω

structure Completion {ω : Type} (Result : ω → Type) where
  job : Job ω
  result : Expected (Result job.operation)

inductive Worker (ω : Type) where
  | waiting
  | running (job : Job ω)
  | exited

/-- The operation the worker is on. -/
def Worker.job {ω : Type} : Worker ω → List (Job ω)
  | .running job => [job]
  | _ => []

structure DatabaseExecutor {ω : Type} (σ : Type) (Result : ω → Type) where
  service : σ
  queueCapacity : Nat
  queue : List (Job ω) := []
  stopping : Bool := false
  worker : Worker ω := .waiting
  submissions : Nat := 0
  accepted : List (Job ω) := []
  rejected : List (Completion Result) := []
  /-- The jobs the worker took, in that order. -/
  executed : List (Job ω) := []
  /-- The completions the worker made, in that order. -/
  finished : List (Completion Result) := []

namespace DatabaseExecutor

variable {ω σ ε : Type} {Result : ω → Type}

def stoppingError : Error := ⟨.storage, "Database executor is stopping"⟩

def queueFullError : Error := ⟨.overloaded, "Database executor queue is full"⟩

/-! ## Steps -/

/-- The critical section that `Submit` and `AsyncSubmit` share. -/
def enqueue (completes : Completes) (operation : ω) (e : DatabaseExecutor σ Result) :
    DatabaseExecutor σ Result :=
  let job : Job ω := { submission := e.submissions, completes, operation }
  let submissions := e.submissions + 1
  if e.stopping then
    { e with submissions, rejected := e.rejected ++ [⟨job, .error stoppingError⟩] }
  else if e.queueCapacity ≤ e.queue.length then
    { e with submissions, rejected := e.rejected ++ [⟨job, .error queueFullError⟩] }
  else
    { e with submissions, queue := e.queue ++ [job], accepted := e.accepted ++ [job] }

def submit (operation : ω) : DatabaseExecutor σ Result → DatabaseExecutor σ Result :=
  enqueue .promise operation

def asyncSubmit (operation : ω) : DatabaseExecutor σ Result → DatabaseExecutor σ Result :=
  enqueue .handler operation

/-- `Run`, from the wait to the pop: nothing happens while the queue is empty and nobody stops. -/
def wake (e : DatabaseExecutor σ Result) : Option (DatabaseExecutor σ Result) :=
  match e.worker, e.queue with
  | .waiting, [] => if e.stopping then some { e with worker := .exited } else none
  | .waiting, job :: queue =>
      some { e with queue, worker := .running job, executed := e.executed ++ [job] }
  | _, _ => none

/-- `Run`: `operation();`. -/
def operate (invoke : (operation : ω) → ε → σ → Outcome (Result operation) × σ) (environment : ε)
    (e : DatabaseExecutor σ Result) : Option (DatabaseExecutor σ Result) :=
  match e.worker with
  | .running job =>
      let (outcome, service) := invoke job.operation environment e.service
      some { e with
        service
        worker := .waiting
        finished := e.finished ++ [⟨job, outcome.completion⟩] }
  | _ => none

def stop (e : DatabaseExecutor σ Result) : DatabaseExecutor σ Result := { e with stopping := true }

inductive Event (ω ε : Type) where
  | submit (operation : ω)
  | asyncSubmit (operation : ω)
  | wake
  | operate (environment : ε)
  | stop

variable (workload : Workload ω σ ε)

def next (e : DatabaseExecutor σ workload.Result) :
    Event ω ε → Option (DatabaseExecutor σ workload.Result)
  | .submit operation => some (e.submit operation)
  | .asyncSubmit operation => some (e.asyncSubmit operation)
  | .wake => e.wake
  | .operate environment => e.operate workload.invoke environment
  | .stop => some e.stop

/-- All interleavings, from a constructed executor; the constructor refuses a capacity of zero. -/
def runs : System (DatabaseExecutor σ workload.Result) (Event ω ε) where
  init e := ∃ service queueCapacity, 0 < queueCapacity ∧ e = { service, queueCapacity }
  step e event e' := e.next workload event = some e'

/-! ## What a step does -/

section

variable {e e' : DatabaseExecutor σ Result} {operation : ω} {completes : Completes}

/-- The executor takes a submission now. -/
def Admits (e : DatabaseExecutor σ Result) : Prop :=
  e.stopping = false ∧ e.queue.length < e.queueCapacity

instance (e : DatabaseExecutor σ Result) : Decidable e.Admits := inferInstanceAs (Decidable (_ ∧ _))

/-- The jobs accepted and not completed. -/
def pending (e : DatabaseExecutor σ Result) : List (Job ω) := e.worker.job ++ e.queue

theorem enqueue_of_admits (h : e.Admits) :
    e.enqueue completes operation = { e with
      submissions := e.submissions + 1
      queue := e.queue ++ [{ submission := e.submissions, completes, operation }]
      accepted := e.accepted ++ [{ submission := e.submissions, completes, operation }] } := by
  simp only [enqueue, h.1, Bool.false_eq_true, if_false, Nat.not_le.mpr h.2]

theorem enqueue_of_not_admits (h : ¬ e.Admits) : ∃ error,
    (error = stoppingError ∨ error = queueFullError) ∧
      e.enqueue completes operation = { e with
        submissions := e.submissions + 1
        rejected := e.rejected ++
          [⟨{ submission := e.submissions, completes, operation }, .error error⟩] } := by
  unfold enqueue
  split
  · exact ⟨stoppingError, Or.inl rfl, rfl⟩
  · next hstop =>
      have hfull : e.queueCapacity ≤ e.queue.length :=
        Nat.le_of_not_lt fun hroom => h ⟨by simpa using hstop, hroom⟩
      exact ⟨queueFullError, Or.inr rfl, by rw [if_pos hfull]⟩

/-- Waking up moves a job from the queue to the worker, or ends the worker. -/
theorem wake_eq_some (h : e.wake = some e') : e.worker = .waiting ∧
    ((e.queue = [] ∧ e.stopping = true ∧ e' = { e with worker := .exited }) ∨
      ∃ job queue, e.queue = job :: queue ∧
        e' = { e with queue, worker := .running job, executed := e.executed ++ [job] }) := by
  unfold wake at h
  split at h
  · next hworker hqueue =>
      split at h
      · next hstop => exact ⟨hworker, Or.inl ⟨hqueue, hstop, (Option.some.inj h).symm⟩⟩
      · cases h
  · next job queue hworker hqueue =>
      exact ⟨hworker, Or.inr ⟨job, queue, hqueue, (Option.some.inj h).symm⟩⟩
  · cases h

theorem wake_pending (h : e.wake = some e') : e'.pending = e.pending := by
  obtain ⟨hworker, ⟨hqueue, -, rfl⟩ | ⟨job, queue, hqueue, rfl⟩⟩ := wake_eq_some h
  · simp [pending, hworker, hqueue, Worker.job]
  · simp [pending, hworker, hqueue, Worker.job]

theorem operate_eq_some {invoke : (operation : ω) → ε → σ → Outcome (Result operation) × σ}
    {environment : ε} (h : e.operate invoke environment = some e') :
    ∃ job, e.worker = .running job ∧
      e' = { e with
        service := (invoke job.operation environment e.service).2
        worker := .waiting
        finished := e.finished ++
          [⟨job, (invoke job.operation environment e.service).1.completion⟩] } := by
  unfold operate at h
  split at h
  · next job hworker => exact ⟨job, hworker, (Option.some.inj h).symm⟩
  · cases h

end

/-! ## The invariant -/

/-- Every completion so far. -/
def completed (e : DatabaseExecutor σ Result) : List (Completion Result) :=
  e.rejected ++ e.finished

/-- The submission numbers, accepted or rejected. -/
def numbers (e : DatabaseExecutor σ Result) : List Nat :=
  (e.accepted ++ e.rejected.map fun c => c.job).map fun job => job.submission

structure Inv (e : DatabaseExecutor σ workload.Result) : Prop where
  numbered : e.numbers.Perm (List.range e.submissions)
  fifo : e.accepted = e.executed ++ e.queue
  oneAtATime : e.executed = (e.finished.map fun c => c.job) ++ e.worker.job
  bounded : e.queue.length ≤ e.queueCapacity
  exits : e.worker = .exited → e.stopping = true ∧ e.queue = []
  rejections : ∀ c ∈ e.rejected, c.result = .error stoppingError ∨ c.result = .error queueFullError
  results : ∀ c ∈ e.finished, ∃ environment service service' outcome,
    workload.invoke c.job.operation environment service = (outcome, service') ∧
      c.result = outcome.completion

variable {workload} {e e' : DatabaseExecutor σ workload.Result}

theorem inv_init {service : σ} {queueCapacity : Nat} :
    Inv workload { service, queueCapacity } where
  numbered := List.Perm.refl _
  fifo := rfl
  oneAtATime := rfl
  bounded := Nat.zero_le _
  exits h := by cases h
  rejections _ hc := by simp at hc
  results _ hc := by simp at hc

/-- A new submission gets the next number. -/
theorem numbers_snoc {a r : List Nat} {n : Nat} (h : (a ++ r).Perm (List.range n)) :
    ((a ++ [n]) ++ r).Perm (List.range (n + 1)) ∧ (a ++ (r ++ [n])).Perm (List.range (n + 1)) := by
  rw [List.range_succ]
  constructor
  · rw [List.append_assoc]
    exact (List.perm_append_comm.append_left a).trans (by
      rw [← List.append_assoc]
      exact h.append_right [n])
  · rw [← List.append_assoc]
    exact h.append_right [n]

theorem Inv.reject (h : Inv workload e) {job : Job ω} (hjob : job.submission = e.submissions)
    {error : Error} (herror : error = stoppingError ∨ error = queueFullError) :
    Inv workload { e with
      submissions := e.submissions + 1
      rejected := e.rejected ++ [⟨job, .error error⟩] } where
  __ := h
  numbered := by
    have hn := h.numbered
    simp only [numbers, List.map_append, List.map_cons, List.map_nil, hjob] at hn ⊢
    exact (numbers_snoc hn).2
  rejections c hc := by
    rcases List.mem_append.mp hc with hc | hc
    · exact h.rejections c hc
    · obtain rfl := List.mem_singleton.mp hc
      exact herror.imp (fun h => by rw [h]) fun h => by rw [h]

theorem Inv.accept (h : Inv workload e) {job : Job ω} (hjob : job.submission = e.submissions)
    (hadmits : e.Admits) :
    Inv workload { e with
      submissions := e.submissions + 1
      queue := e.queue ++ [job]
      accepted := e.accepted ++ [job] } where
  __ := h
  numbered := by
    have hn := h.numbered
    simp only [numbers, List.map_append, List.map_cons, List.map_nil, hjob] at hn ⊢
    exact (numbers_snoc hn).1
  fifo := by simp only [h.fifo, List.append_assoc]
  bounded := by
    have hroom := hadmits.2
    simp only [List.length_append, List.length_cons, List.length_nil]
    omega
  exits hw := absurd (h.exits hw).1 (by simp [hadmits.1])

theorem Inv.enqueue (h : Inv workload e) (completes : Completes) (operation : ω) :
    Inv workload (e.enqueue completes operation) := by
  by_cases hadmits : e.Admits
  · rw [enqueue_of_admits hadmits]
    exact h.accept rfl hadmits
  · obtain ⟨error, herror, heq⟩ := enqueue_of_not_admits hadmits
    rw [heq]
    exact h.reject rfl herror

theorem Inv.wake (h : Inv workload e) (hstep : e.wake = some e') : Inv workload e' := by
  have hone := h.oneAtATime
  obtain ⟨hworker, ⟨hqueue, hstop, rfl⟩ | ⟨job, queue, hqueue, rfl⟩⟩ := wake_eq_some hstep
  · rw [hworker] at hone
    exact { h with oneAtATime := hone, exits := fun _ => ⟨hstop, hqueue⟩ }
  · have hfifo := h.fifo
    have hbounded := h.bounded
    simp only [hworker, Worker.job, List.append_nil] at hone
    rw [hqueue] at hfifo hbounded
    exact
      { h with
        fifo := by simp only [hfifo, List.append_assoc, List.singleton_append]
        oneAtATime := by simp only [hone, Worker.job]
        bounded := by
          simp only [List.length_cons] at hbounded
          simp only
          omega
        exits := fun hw => by cases hw }

theorem Inv.operate (h : Inv workload e) {environment : ε}
    (hstep : e.operate workload.invoke environment = some e') : Inv workload e' := by
  obtain ⟨job, hworker, rfl⟩ := operate_eq_some hstep
  have hone := h.oneAtATime
  simp only [hworker, Worker.job] at hone
  exact
    { h with
      oneAtATime := by simp [hone, Worker.job]
      exits := fun hw => by cases hw
      results := fun c hc => by
        rcases List.mem_append.mp hc with hc | hc
        · exact h.results c hc
        · obtain rfl := List.mem_singleton.mp hc
          exact ⟨environment, e.service, _, _, rfl, rfl⟩ }

theorem Inv.stop (h : Inv workload e) : Inv workload e.stop where
  __ := h
  exits hw := ⟨rfl, (h.exits hw).2⟩

/-- **The invariant holds in every interleaving.** -/
theorem inv_of_reachable (h : (runs workload).Reachable e) : Inv workload e := by
  refine h.invariant ?_ ?_
  · rintro e ⟨service, queueCapacity, -, rfl⟩
    exact inv_init
  · intro e event e' hi hstep
    cases event with
    | submit operation =>
        obtain rfl := Option.some.inj hstep
        exact hi.enqueue .promise operation
    | asyncSubmit operation =>
        obtain rfl := Option.some.inj hstep
        exact hi.enqueue .handler operation
    | wake => exact hi.wake hstep
    | operate environment => exact hi.operate hstep
    | stop =>
        obtain rfl := Option.some.inj hstep
        exact hi.stop

/-! ## Exactly once, bounded, first in first out -/

/-- What the executor owes its callers in every state. -/
structure Fifo (e : DatabaseExecutor σ workload.Result) : Prop where
  /-- No submission is completed twice. -/
  atMostOnce : (e.completed.map fun c => c.job.submission).Nodup
  /-- Once the worker has exited, every submission is completed. -/
  onceExited : e.worker = .exited → ∀ n < e.submissions,
    ∃ c ∈ e.completed, c.job.submission = n
  /-- The operations run in the order they were accepted in, each once, and what did not run yet
  is queued. -/
  inOrder : e.accepted = e.executed ++ e.queue
  /-- An operation runs after the one before it has completed. -/
  oneAtATime : e.executed = (e.finished.map fun c => c.job) ++ e.worker.job
  neverRejected : ∀ c ∈ e.rejected, ∀ job ∈ e.executed, job.submission ≠ c.job.submission
  /-- A completion by the worker carries what its own operation returned or threw. -/
  results : ∀ c ∈ e.finished, ∃ environment service service' outcome,
    workload.invoke c.job.operation environment service = (outcome, service') ∧
      c.result = outcome.completion
  bounded : e.queue.length ≤ e.queueCapacity
  /-- The worker exits when it was told to and nothing accepted is left. -/
  exits : e.worker = .exited →
    e.stopping = true ∧ e.executed = e.accepted ∧ (e.finished.map fun c => c.job) = e.accepted

/-- What becomes of a submission, whichever way it is made: `job` is what it would enqueue. -/
structure Admission (e : DatabaseExecutor σ workload.Result)
    (e' : DatabaseExecutor σ workload.Result) (job : Job ω) : Prop where
  stopping : e'.rejected = e.rejected ++ [⟨job, .error stoppingError⟩] ↔ e.stopping = true
  overloaded : e'.rejected = e.rejected ++ [⟨job, .error queueFullError⟩] ↔
    e.stopping = false ∧ e.queue.length = e.queueCapacity
  accepted : e'.accepted = e.accepted ++ [job] ↔
    e.stopping = false ∧ e.queue.length < e.queueCapacity

theorem Inv.nodup (h : Inv workload e) : e.numbers.Nodup :=
  h.numbered.nodup_iff.mpr List.nodup_range

/-- The accepted jobs are those completed, the one running and those queued. -/
theorem Inv.accepted_eq (h : Inv workload e) :
    e.accepted = (e.finished.map fun c => c.job) ++ e.worker.job ++ e.queue := by
  rw [h.fifo, h.oneAtATime]

theorem Inv.fifo_of (h : Inv workload e) : Fifo e where
  atMostOnce := by
    have hnd := h.nodup
    simp only [numbers, h.accepted_eq, List.map_append, List.map_map] at hnd
    simp only [completed, List.map_append]
    refine List.perm_append_comm.nodup_iff.mp (hnd.sublist ?_)
    refine List.Sublist.append_right ?_ _
    rw [List.append_assoc]
    exact List.sublist_append_left _ _
  onceExited hexit n hn := by
    obtain ⟨-, hqueue⟩ := h.exits hexit
    have hmem : n ∈ e.numbers := h.numbered.mem_iff.mpr (List.mem_range.mpr hn)
    simp only [numbers, h.accepted_eq, hexit, Worker.job, hqueue, List.append_nil, List.map_append,
      List.map_map, List.mem_append, List.mem_map, Function.comp] at hmem
    simp only [completed, List.mem_append]
    rcases hmem with ⟨c, hc, hcn⟩ | ⟨c, hc, hcn⟩
    · exact ⟨c, Or.inr hc, hcn⟩
    · exact ⟨c, Or.inl hc, hcn⟩
  inOrder := h.fifo
  oneAtATime := h.oneAtATime
  neverRejected c hc job hjob heq := by
    have hnd := h.nodup
    simp only [numbers, List.map_append] at hnd
    refine (List.nodup_append.mp hnd).2.2 _ ?_ _ ?_ heq
    · rw [h.fifo]
      exact List.mem_map_of_mem (List.mem_append_left _ hjob)
    · exact List.mem_map_of_mem (List.mem_map_of_mem hc)
  results := h.results
  bounded := h.bounded
  exits hexit := by
    obtain ⟨hstop, hqueue⟩ := h.exits hexit
    have haccepted := h.accepted_eq
    have hfifo := h.fifo
    simp only [hexit, Worker.job, hqueue, List.append_nil] at haccepted hfifo
    exact ⟨hstop, hfifo.symm, haccepted.symm⟩

theorem Inv.admission (h : Inv workload e) (completes : Completes) (operation : ω) :
    Admission e (e.enqueue completes operation)
      { submission := e.submissions, completes, operation } := by
  have hbounded := h.bounded
  have herror : stoppingError ≠ queueFullError := by decide
  unfold DatabaseExecutor.enqueue
  split
  · next hstop => constructor <;> simp [hstop, herror]
  · next hstop =>
      have hstop : e.stopping = false := by simpa using hstop
      split
      · next hfull =>
          have : e.queue.length = e.queueCapacity := by omega
          constructor <;> simp [hstop, herror.symm, this]
      · next hroom =>
          have hlt : e.queue.length < e.queueCapacity := by omega
          constructor <;> simp [hstop, hlt, hlt.ne]

/-- **The executor is an exactly-once bounded FIFO**, in every interleaving of submissions, worker
steps and stops. -/
theorem exactly_once_fifo (h : (runs workload).Reachable e) :
    Fifo e ∧ (∀ operation, Admission e (e.submit operation)
        { submission := e.submissions, completes := .promise, operation }) ∧
      ∀ operation, Admission e (e.asyncSubmit operation)
        { submission := e.submissions, completes := .handler, operation } :=
  have hi := inv_of_reachable h
  ⟨hi.fifo_of, hi.admission .promise, hi.admission .handler⟩

end DatabaseExecutor

/-! ## The executor of the service -/

open RecipesCore.Db RecipesCore.Logic.Program

/-- The executor owns its manager, repository and service; its operations call the service. -/
def serviceWorkload : Workload ServiceOperation DBManager (List StepOutcome) where
  Result := ServiceOperation.Result
  invoke operation environment m :=
    match runOn operation.run (m.withEnvironment environment) with
    | (.ok result, m') => (.returned result, m')
    | (.error exception, m') => (.exception exception.what, m')

namespace ServiceOperation

variable {operation : ServiceOperation} {environment : List StepOutcome} {m : DBManager}

/-- What a submission of the operation completes with, and the manager it leaves. -/
def call (operation : ServiceOperation) (environment : List StepOutcome) (m : DBManager) :
    Expected operation.Result × DBManager :=
  ((serviceWorkload.invoke operation environment m).1.completion,
    (serviceWorkload.invoke operation environment m).2)

theorem call_of_runOn {result : Expected operation.Result} {m' : DBManager}
    (h : runOn operation.run (m.withEnvironment environment) = (.ok result, m')) :
    operation.call environment m = (result, m') := by
  simp only [call, serviceWorkload, h, Outcome.completion]

/-- The repository catches what the manager throws, so a submission is the run of its operation. -/
theorem runOn_eq_call : runOn operation.run (m.withEnvironment environment) =
    (.ok (operation.call environment m).1, (operation.call environment m).2) := by
  have hkept : KeptByTransactions {} (fun _ => True) fun _ => True := by
    have hall : ∀ {α : Type} {body : DbM α}, Keeps (fun _ => True) body := fun m _ => by
      split <;> trivial
    exact ⟨⟨⟨hall, hall⟩, fun _ => hall⟩, ⟨⟨hall, hall⟩, fun _ => hall⟩, hall, fun _ => hall⟩
  rcases hrun : runOn operation.run (m.withEnvironment environment) with ⟨e | result, m'⟩
  · exact ((operation.run_keeps hkept operation.admitted_all).of_error
      (s := m.withEnvironment environment) trivial hrun).elim
  · rw [call_of_runOn hrun]

/-- A triple of the operation, read off a submission. -/
theorem call_triple {P : DBManager → Prop} {Q : Expected operation.Result → DBManager → Prop}
    {E : DbException → DBManager → Prop} (h : Triple P operation.run Q E)
    (hP : P (m.withEnvironment environment)) :
    Q (operation.call environment m).1 (operation.call environment m).2 :=
  h.of_ok hP runOn_eq_call

end ServiceOperation

namespace DatabaseExecutor

/-- One operation runs, one is queued, one finds the queue full, and one comes too late. -/
def crowdedEvents : List (Event ServiceOperation (List StepOutcome)) :=
  [.submit .getProducts, .wake, .asyncSubmit .getRecipes, .submit .getCookableRecipes,
    .stop, .asyncSubmit (.getProduct 1), .operate [], .wake, .operate [], .wake]

/-- The executor after `crowdedEvents`. -/
def crowded : DatabaseExecutor DBManager serviceWorkload.Result :=
  System.play (next serviceWorkload) { service := {}, queueCapacity := 1 } crowdedEvents

theorem exactly_once_fifo_crowded :
    (Fifo crowded ∧ (∀ operation, Admission crowded (crowded.submit operation)
        { submission := crowded.submissions, completes := .promise, operation }) ∧
      ∀ operation, Admission crowded (crowded.asyncSubmit operation)
        { submission := crowded.submissions, completes := .handler, operation }) ∧
    (crowded.finished.map fun c => c.job.submission) = [0, 1] ∧
    (crowded.rejected.map fun c => c.job.submission) = [2, 3] :=
  ⟨exactly_once_fifo (System.Reachable.play (S := runs serviceWorkload) (fun _ _ _ h => h)
      (.init ⟨{}, 1, Nat.one_pos, rfl⟩) crowdedEvents),
    by decide +kernel⟩

end DatabaseExecutor

end RecipesCore.App
