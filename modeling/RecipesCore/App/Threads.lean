import Mathlib.Logic.Function.Basic
import RecipesCore.App.DatabaseExecutor

/-!
# The threads of `app::DatabaseExecutor`

`DatabaseExecutor` takes a critical section for one step. Here its mutex and its condition variable
are explicit: the worker in `Run` and any number of threads in `Submit`, `AsyncSubmit` or `Stop`
take one statement at a time, in any order. `wait` gives the mutex back and blocks in one step, a
blocked worker may wake up spuriously, and `notify_one` wakes a blocked worker or is lost.

Every run of the threads is a run of `DatabaseExecutor` (`executor_reachable`), so what holds there
in every interleaving holds here.
-/

namespace RecipesCore.App

open RecipesCore.Logic

/-! ## State -/

/-- Where the worker is in `Run`. -/
inductive WorkerAt where
  /-- `std::unique_lock lock(mutex_)`. -/
  | locking
  /-- In `wait`, at the predicate. -/
  | checking
  /-- In `wait`: the predicate was false. -/
  | waiting
  /-- In `wait`, without the mutex. -/
  | blocked
  /-- In `wait`: woken up, takes the mutex back. -/
  | relocking
  /-- The predicate was true. -/
  | taking
  /-- The lock goes out of scope. -/
  | unlocking
  /-- `operation();`. -/
  | operating
  | returned
  deriving DecidableEq, Repr

/-- The worker has the mutex. -/
def WorkerAt.holds : WorkerAt → Bool
  | .checking | .waiting | .taking | .unlocking => true
  | _ => false

/-- Where a thread is in `Submit` or `AsyncSubmit`, which share their critical section, or in
`Stop`. -/
inductive CallerAt (ω : Type) where
  | away
  | locking (completes : Completes) (operation : ω)
  | enqueuing (completes : Completes) (operation : ω)
  /-- `condition_.notify_one()`, under the lock. -/
  | notifying
  | unlocking
  | stopLocking
  /-- `stopping_ = true;`. -/
  | stopSetting
  | stopUnlocking
  /-- `condition_.notify_one()`, after the lock. -/
  | stopNotifying
  deriving DecidableEq, Repr

namespace CallerAt

variable {ω : Type}

/-- The thread has the mutex. -/
def holds : CallerAt ω → Bool
  | .enqueuing _ _ | .notifying | .unlocking | .stopSetting | .stopUnlocking => true
  | _ => false

/-- The thread has made the predicate true and its `notify_one` is still to come. -/
def owesNotification : CallerAt ω → Bool
  | .notifying | .stopUnlocking | .stopNotifying => true
  | _ => false

end CallerAt

inductive Thread where
  | worker
  | caller (n : Nat)
  deriving DecidableEq, Repr

/-- `stopping_ || !queue_.empty()`. -/
def DatabaseExecutor.ready {ω σ : Type} {Result : ω → Type} (e : DatabaseExecutor σ Result) :
    Bool :=
  e.stopping || !e.queue.isEmpty

structure Threads {ω : Type} (σ : Type) (Result : ω → Type) where
  executor : DatabaseExecutor σ Result
  /-- Who has `mutex_`. -/
  mutex : Option Thread := none
  worker : WorkerAt := .locking
  callers : Nat → CallerAt ω := fun _ => .away

namespace Threads

variable {ω σ ε : Type} {Result : ω → Type}

/-! ## Steps -/

def lock (thread : Thread) (s : Threads σ Result) : Option (Threads σ Result) :=
  match s.mutex with
  | none => some { s with mutex := some thread }
  | some _ => none

def unlock (s : Threads σ Result) : Threads σ Result := { s with mutex := none }

/-- `condition_.notify_one()`. -/
def notifyOne (s : Threads σ Result) : Threads σ Result :=
  match s.worker with
  | .blocked => { s with worker := .relocking }
  | _ => s

def setCaller (n : Nat) (place : CallerAt ω) (s : Threads σ Result) : Threads σ Result :=
  { s with callers := Function.update s.callers n place }

/-- The next statement of a thread in `Submit`, `AsyncSubmit` or `Stop`. -/
def callerStep (n : Nat) (s : Threads σ Result) : Option (Threads σ Result) :=
  match s.callers n with
  | .away => none
  | .locking completes operation =>
      (s.lock (.caller n)).map (setCaller n (.enqueuing completes operation))
  | .enqueuing completes operation =>
      -- A refused submission returns without a notification.
      let place := if s.executor.Admits then .notifying else .unlocking
      some ({ s with executor := s.executor.enqueue completes operation }.setCaller n place)
  | .notifying => some (s.notifyOne.setCaller n .unlocking)
  | .unlocking => some (s.unlock.setCaller n .away)
  | .stopLocking => (s.lock (.caller n)).map (setCaller n .stopSetting)
  | .stopSetting => some ({ s with executor := s.executor.stop }.setCaller n .stopUnlocking)
  | .stopUnlocking => some (s.unlock.setCaller n .stopNotifying)
  | .stopNotifying => some (s.notifyOne.setCaller n .away)

/-- A thread that is in none of the calls enters one. -/
def enter (n : Nat) (place : CallerAt ω) (s : Threads σ Result) : Option (Threads σ Result) :=
  match s.callers n with
  | .away => some (s.setCaller n place)
  | _ => none

/-- The next statement of the worker in `Run`. -/
def workerStep (invoke : (operation : ω) → ε → σ → Outcome (Result operation) × σ)
    (environment : ε) (s : Threads σ Result) : Option (Threads σ Result) :=
  match s.worker with
  | .locking => (s.lock .worker).map fun s => { s with worker := .checking }
  | .checking => some { s with worker := if s.executor.ready then .taking else .waiting }
  | .waiting => some { s.unlock with worker := .blocked }
  | .blocked => none
  | .relocking => (s.lock .worker).map fun s => { s with worker := .checking }
  | .taking => s.executor.wake.map fun executor => { s with executor, worker := .unlocking }
  | .unlocking =>
      let place := match s.executor.worker with
        | .running _ => WorkerAt.operating
        | _ => WorkerAt.returned
      some { s.unlock with worker := place }
  | .operating => (s.executor.operate invoke environment).map fun executor =>
      { s with executor, worker := .locking }
  | .returned => none

/-- The worker wakes up without a notification. -/
def spuriousWakeup (s : Threads σ Result) : Option (Threads σ Result) :=
  match s.worker with
  | .blocked => some { s with worker := .relocking }
  | _ => none

inductive Event (ω ε : Type) where
  | submit (n : Nat) (operation : ω)
  | asyncSubmit (n : Nat) (operation : ω)
  | stop (n : Nat)
  | caller (n : Nat)
  | worker (environment : ε)
  | spuriousWakeup

variable (workload : Workload ω σ ε)

def next (s : Threads σ workload.Result) : Event ω ε → Option (Threads σ workload.Result)
  | .submit n operation => s.enter n (.locking .promise operation)
  | .asyncSubmit n operation => s.enter n (.locking .handler operation)
  | .stop n => s.enter n .stopLocking
  | .caller n => s.callerStep n
  | .worker environment => s.workerStep workload.invoke environment
  | .spuriousWakeup => s.spuriousWakeup

/-- All interleavings, from a constructed executor whose worker has just been started. -/
def runs : System (Threads σ workload.Result) (Event ω ε) where
  init s := ∃ service queueCapacity, 0 < queueCapacity ∧
    s = { executor := { service, queueCapacity } }
  step s event t := s.next workload event = some t

/-! ## What a statement does -/

section

variable {s t : Threads σ Result}

theorem map_lock_eq_some {thread : Thread} {f : Threads σ Result → Threads σ Result} :
    (s.lock thread).map f = some t ↔ s.mutex = none ∧ f { s with mutex := some thread } = t := by
  unfold lock
  cases hm : s.mutex with
  | none => simp
  | some holder => simp

@[simp] theorem notifyOne_executor : s.notifyOne.executor = s.executor := by
  grind [notifyOne]

@[simp] theorem notifyOne_mutex : s.notifyOne.mutex = s.mutex := by
  grind [notifyOne]

@[simp] theorem notifyOne_callers : s.notifyOne.callers = s.callers := by
  grind [notifyOne]

theorem enter_eq_some {n : Nat} {place : CallerAt ω} (h : s.enter n place = some t) :
    s.callers n = .away ∧ t = s.setCaller n place := by
  grind [enter]

end

variable {workload}

/-! ## A run of the threads is a run of the executor -/

/-- A statement leaves the executor alone or is one of its steps. -/
theorem next_executor {s t : Threads σ workload.Result} {event : Event ω ε}
    (h : s.next workload event = some t) : t.executor = s.executor ∨
      ∃ event, (DatabaseExecutor.runs workload).step s.executor event t.executor := by
  cases event with
  | submit n operation =>
      obtain ⟨-, rfl⟩ := enter_eq_some h
      exact Or.inl rfl
  | asyncSubmit n operation =>
      obtain ⟨-, rfl⟩ := enter_eq_some h
      exact Or.inl rfl
  | stop n =>
      obtain ⟨-, rfl⟩ := enter_eq_some h
      exact Or.inl rfl
  | spuriousWakeup => grind [next, spuriousWakeup]
  | caller n =>
      simp only [next, callerStep] at h
      split at h <;> simp only [map_lock_eq_some, Option.some.injEq, reduceCtorEq] at h
      -- `Enqueue` is one step of the executor
      case h_3 completes operation hat =>
        right
        subst h
        cases completes with
        | promise => exact ⟨.submit operation, rfl⟩
        | handler => exact ⟨.asyncSubmit operation, rfl⟩
      -- setting `stopping_` as well; the rest takes, gives or notifies
      case h_7 => exact Or.inr ⟨.stop, by subst h; rfl⟩
      all_goals grind [setCaller, unlock, notifyOne_executor]
  | worker environment =>
      simp only [next, workerStep] at h
      split at h
      -- taking an operation, and running it
      case h_6 =>
        obtain ⟨executor, hwake, rfl⟩ := Option.map_eq_some_iff.mp h
        exact Or.inr ⟨.wake, hwake⟩
      case h_8 =>
        obtain ⟨executor, hoperate, rfl⟩ := Option.map_eq_some_iff.mp h
        exact Or.inr ⟨.operate environment, hoperate⟩
      all_goals simp only [map_lock_eq_some, Option.some.injEq, reduceCtorEq] at h
      all_goals grind [unlock]

/-- Every run of the threads is a run of `DatabaseExecutor`. -/
theorem executor_reachable {s : Threads σ workload.Result} (h : (runs workload).Reachable s) :
    (DatabaseExecutor.runs workload).Reachable s.executor := by
  induction h with
  | init h =>
      obtain ⟨service, queueCapacity, hpos, rfl⟩ := h
      exact .init ⟨service, queueCapacity, hpos, rfl⟩
  | step _ hstep ih =>
      obtain hsame | ⟨event, hevent⟩ := next_executor hstep
      · rw [hsame]
        exact ih
      · exact .step ih hevent

/-! ## The invariant -/

/-- A `notify_one` is still to come from a thread that has made the predicate true. -/
def NotificationPending (s : Threads σ Result) : Prop :=
  ∃ n, (s.callers n).owesNotification = true

/-- What the place of the worker says about the executor. -/
def Matches (place : WorkerAt) (worker : Worker ω) : Prop :=
  match place with
  | .unlocking => worker ≠ .waiting
  | .operating => ∃ job, worker = .running job
  | .returned => worker = .exited
  | _ => worker = .waiting

structure Wakeful (s : Threads σ Result) : Prop where
  workerHolds : s.worker.holds = true ↔ s.mutex = some .worker
  callerHolds : ∀ n, (s.callers n).holds = true ↔ s.mutex = some (.caller n)
  /-- Under the mutex, what the predicate said stays so. -/
  waits : s.worker = .waiting → s.executor.ready = false
  takes : s.worker = .taking → s.executor.ready = true
  /-- Whoever made the predicate true since the worker blocked still owes it a notification. -/
  blocks : s.worker = .blocked → s.executor.ready = false ∨ s.NotificationPending
  matched : Matches s.worker s.executor.worker

section

variable {s t : Threads σ Result} {n : Nat} {place : CallerAt ω}

theorem setCaller_callers_self : (s.setCaller n place).callers n = place := by
  simp [setCaller]

theorem setCaller_callers_ne {m : Nat} (h : m ≠ n) :
    (s.setCaller n place).callers m = s.callers m := by
  simp [setCaller, h]

/-- What one statement of a caller may do: take or give the mutex for itself, change the executor
while the worker does not look, and leave a blocked worker no more to wait for than it has. -/
theorem Wakeful.caller (h : s.Wakeful) {executor : DatabaseExecutor σ Result}
    {mutex : Option Thread} (hself : place.holds = true ↔ mutex = some (.caller n))
    (hothers : ∀ thread ≠ .caller n, mutex = some thread ↔ s.mutex = some thread)
    (hworker : executor.worker = s.executor.worker)
    (hready : s.worker.holds = true → executor.ready = s.executor.ready)
    (howes : s.worker = .blocked → place.owesNotification = true ∨
      executor.ready = s.executor.ready ∧ (s.callers n).owesNotification = false) :
    ({ s with executor, mutex }.setCaller n place).Wakeful where
  workerHolds := by
    show s.worker.holds = true ↔ mutex = some .worker
    rw [hothers .worker (by simp)]
    exact h.workerHolds
  callerHolds m := by
    by_cases hm : m = n
    · subst hm
      rw [setCaller_callers_self]
      exact hself
    · rw [setCaller_callers_ne hm]
      show (s.callers m).holds = true ↔ mutex = some (.caller m)
      rw [hothers (.caller m) (by simpa using hm)]
      exact h.callerHolds m
  waits hwaits := by
    show executor.ready = false
    have hwaits : s.worker = .waiting := hwaits
    rw [hready (by rw [hwaits]; rfl)]
    exact h.waits hwaits
  takes htakes := by
    show executor.ready = true
    have htakes : s.worker = .taking := htakes
    rw [hready (by rw [htakes]; rfl)]
    exact h.takes htakes
  blocks hblocked := by
    -- either this caller owes the notification now, or whoever owed it still does
    obtain howes | ⟨hsame, hclear⟩ := howes hblocked
    · exact Or.inr ⟨n, by rw [setCaller_callers_self]; exact howes⟩
    obtain hready | ⟨m, hm⟩ := h.blocks hblocked
    · exact Or.inl (hsame.trans hready)
    · have hne : m ≠ n := by
        intro hmn
        rw [hmn, hclear] at hm
        cases hm
      exact Or.inr ⟨m, by rw [setCaller_callers_ne hne]; exact hm⟩
  matched := by
    show Matches s.worker executor.worker
    rw [hworker]
    exact h.matched

/-- `notify_one` leaves no worker blocked. -/
theorem notifyOne_not_blocked : s.notifyOne.worker ≠ .blocked := by
  unfold notifyOne
  split
  · simp
  · assumption

theorem Wakeful.notifyOne (h : s.Wakeful) : s.notifyOne.Wakeful := by
  unfold Threads.notifyOne
  split
  · next hblocked =>
      have hworker := h.workerHolds
      have hmatched := h.matched
      rw [hblocked] at hworker hmatched
      exact
        { h with
          workerHolds := hworker
          waits := fun hw => by cases hw
          takes := fun hw => by cases hw
          blocks := fun hw => by cases hw
          matched := hmatched }
  · exact h

theorem Wakeful.enter (h : s.Wakeful) (hplace : place.holds = false)
    (hstep : s.enter n place = some t) : t.Wakeful := by
  obtain ⟨haway, rfl⟩ := enter_eq_some hstep
  have hcaller := h.callerHolds n
  rw [haway] at hcaller
  apply h.caller
  · rw [hplace]
    exact hcaller
  · intro thread _
    exact Iff.rfl
  · rfl
  · intro _
    rfl
  · intro _
    right
    rw [haway]
    exact ⟨rfl, rfl⟩

/-- A caller that has the mutex keeps the worker from looking. -/
theorem Wakeful.excludes (h : s.Wakeful) (hholds : (s.callers n).holds = true) :
    s.worker.holds = false := by
  have hmutex := (h.callerHolds n).mp hholds
  have hworker := h.workerHolds
  rw [hmutex] at hworker
  simpa using hworker

/-- A caller that holds nothing waits for the mutex and takes it. -/
theorem Wakeful.lockCaller (h : s.Wakeful) (hfree : s.mutex = none) (hplace : place.holds = true)
    (howes : (s.callers n).owesNotification = false) :
    ({ s with mutex := some (.caller n) }.setCaller n place).Wakeful := by
  apply h.caller
  · exact iff_of_true hplace rfl
  · intro thread hne
    rw [hfree]
    simpa using Ne.symm hne
  · rfl
  · intro _
    rfl
  · intro _
    exact Or.inr ⟨rfl, howes⟩

theorem Wakeful.unlockCaller (h : s.Wakeful) (hholds : (s.callers n).holds = true)
    (hplace : place.holds = false)
    (howes : (s.callers n).owesNotification = true → place.owesNotification = true) :
    (s.unlock.setCaller n place).Wakeful := by
  have hmutex := (h.callerHolds n).mp hholds
  apply h.caller
  · exact iff_of_false (by simp [hplace]) (by simp)
  · intro thread hne
    rw [hmutex]
    simpa using Ne.symm hne
  · rfl
  · intro _
    rfl
  · intro _
    cases ho : (s.callers n).owesNotification with
    | false => exact Or.inr ⟨rfl, rfl⟩
    | true => exact Or.inl (howes ho)

/-- Under the mutex a caller changes the executor, and from then on owes the notification that the
change calls for. -/
theorem Wakeful.change (h : s.Wakeful) {executor : DatabaseExecutor σ Result}
    (hholds : (s.callers n).holds = true) (hplace : place.holds = true)
    (hworker : executor.worker = s.executor.worker)
    (howes : place.owesNotification = true ∨
      executor.ready = s.executor.ready ∧ (s.callers n).owesNotification = false) :
    ({ s with executor }.setCaller n place).Wakeful := by
  apply h.caller
  · exact iff_of_true hplace ((h.callerHolds n).mp hholds)
  · intro thread _
    exact Iff.rfl
  · exact hworker
  · intro hlooks
    rw [h.excludes hholds] at hlooks
    cases hlooks
  · intro _
    exact howes

/-- After its `notify_one` a caller owes nothing. -/
theorem Wakeful.notify (h : s.Wakeful) (hplace : place.holds = (s.callers n).holds) :
    (s.notifyOne.setCaller n place).Wakeful := by
  apply h.notifyOne.caller
  · show _ ↔ s.notifyOne.mutex = some (.caller n)
    rw [hplace, notifyOne_mutex]
    exact h.callerHolds n
  · intro thread _
    exact Iff.rfl
  · rfl
  · intro _
    rfl
  · intro hblocked
    exact absurd hblocked notifyOne_not_blocked

theorem enqueue_worker {completes : Completes} {operation : ω} {e : DatabaseExecutor σ Result} :
    (e.enqueue completes operation).worker = e.worker := by
  unfold DatabaseExecutor.enqueue
  split
  · rfl
  · split <;> rfl

theorem enqueue_ready_of_not_admits {completes : Completes} {operation : ω}
    {e : DatabaseExecutor σ Result} (h : ¬ e.Admits) :
    (e.enqueue completes operation).ready = e.ready := by
  unfold DatabaseExecutor.enqueue
  split
  · rfl
  · next hstop =>
      split
      · rfl
      · next hfull => exact absurd ⟨by simpa using hstop, Nat.lt_of_not_le hfull⟩ h

theorem Wakeful.callerStep (h : s.Wakeful) (hstep : s.callerStep n = some t) : t.Wakeful := by
  unfold Threads.callerStep at hstep
  split at hstep <;>
    simp only [map_lock_eq_some, Option.some.injEq, reduceCtorEq] at hstep
  -- `Enqueue`: take the mutex, put the operation in or refuse it, notify, give the mutex back
  case h_2 completes operation hat =>
    obtain ⟨hfree, rfl⟩ := hstep
    exact h.lockCaller hfree rfl (by rw [hat]; rfl)
  case h_3 completes operation hat =>
    subst hstep
    by_cases hadmits : s.executor.Admits
    · rw [if_pos hadmits]
      exact h.change (by rw [hat]; rfl) rfl enqueue_worker (Or.inl rfl)
    · rw [if_neg hadmits]
      exact h.change (by rw [hat]; rfl) rfl enqueue_worker
        (Or.inr ⟨enqueue_ready_of_not_admits hadmits, by rw [hat]; rfl⟩)
  case h_4 hat =>
    subst hstep
    exact h.notify (by rw [hat]; rfl)
  case h_5 hat =>
    subst hstep
    exact h.unlockCaller (by rw [hat]; rfl) rfl (by rw [hat]; intro howes; cases howes)
  -- `Stop` gives the mutex back before it notifies
  case h_6 hat =>
    obtain ⟨hfree, rfl⟩ := hstep
    exact h.lockCaller hfree rfl (by rw [hat]; rfl)
  case h_7 hat =>
    subst hstep
    exact h.change (by rw [hat]; rfl) rfl rfl (Or.inl rfl)
  case h_8 hat =>
    subst hstep
    exact h.unlockCaller (by rw [hat]; rfl) rfl (fun _ => rfl)
  case h_9 hat =>
    subst hstep
    exact h.notify (by rw [hat]; rfl)

/-- Nobody else has the mutex while the worker waits for it, so the worker may take it. -/
theorem Wakeful.lockWorker (h : s.Wakeful) (hfree : s.mutex = none)
    (hplace : Matches .checking s.executor.worker) :
    ({ s with mutex := some .worker, worker := .checking } : Threads σ Result).Wakeful where
  workerHolds := iff_of_true rfl rfl
  callerHolds m := by
    have hcaller := h.callerHolds m
    rw [hfree] at hcaller
    simpa using hcaller
  waits hw := by cases hw
  takes hw := by cases hw
  blocks hw := by cases hw
  matched := hplace

/-- The worker moves on in the mutex. -/
theorem Wakeful.workerLooks (h : s.Wakeful) {executor : DatabaseExecutor σ Result}
    {worker : WorkerAt} (hbefore : s.worker.holds = true) (hafter : worker.holds = true)
    (hwaits : worker = .waiting → executor.ready = false)
    (htakes : worker = .taking → executor.ready = true)
    (hmatched : Matches worker executor.worker) :
    ({ s with executor, worker } : Threads σ Result).Wakeful where
  workerHolds := iff_of_true hafter (h.workerHolds.mp hbefore)
  callerHolds := h.callerHolds
  waits := hwaits
  takes := htakes
  blocks hblocked := by
    have hblocked : worker = .blocked := hblocked
    rw [hblocked] at hafter
    cases hafter
  matched := hmatched

/-- The worker gives the mutex back. -/
theorem Wakeful.unlockWorker (h : s.Wakeful) {worker : WorkerAt} (hbefore : s.worker.holds = true)
    (hafter : worker.holds = false) (hblocks : worker = .blocked → s.executor.ready = false)
    (hmatched : Matches worker s.executor.worker) :
    ({ s.unlock with worker } : Threads σ Result).Wakeful where
  workerHolds := iff_of_false (by simp [hafter]) (by simp [Threads.unlock])
  callerHolds m := by
    have hcaller := h.callerHolds m
    rw [h.workerHolds.mp hbefore] at hcaller
    simpa [Threads.unlock] using hcaller
  waits hwaits := by
    have hwaits : worker = .waiting := hwaits
    rw [hwaits] at hafter
    cases hafter
  takes htakes := by
    have htakes : worker = .taking := htakes
    rw [htakes] at hafter
    cases hafter
  blocks hblocked := Or.inl (hblocks hblocked)
  matched := hmatched

/-- The worker moves on without the mutex. -/
theorem Wakeful.workerMoves (h : s.Wakeful) {executor : DatabaseExecutor σ Result}
    {worker : WorkerAt} (hbefore : s.worker.holds = false) (hafter : worker.holds = false)
    (hblocked : worker ≠ .blocked) (hmatched : Matches worker executor.worker) :
    ({ s with executor, worker } : Threads σ Result).Wakeful where
  workerHolds := by
    have hworker := h.workerHolds
    rw [hbefore] at hworker
    rw [← hworker, hafter]
  callerHolds := h.callerHolds
  waits hwaits := by
    have hwaits : worker = .waiting := hwaits
    rw [hwaits] at hafter
    cases hafter
  takes htakes := by
    have htakes : worker = .taking := htakes
    rw [htakes] at hafter
    cases hafter
  blocks h := absurd h hblocked
  matched := hmatched

variable {invoke : (operation : ω) → ε → σ → Outcome (Result operation) × σ} {environment : ε}

theorem Wakeful.workerStep (h : s.Wakeful) (hstep : s.workerStep invoke environment = some t) :
    t.Wakeful := by
  have hmatched := h.matched
  unfold Threads.workerStep at hstep
  split at hstep
  case h_1 hat =>
    obtain ⟨hfree, rfl⟩ := map_lock_eq_some.mp hstep
    rw [hat] at hmatched
    exact h.lockWorker hfree hmatched
  -- `wait` looks at the predicate while it has the mutex, before it blocks and after it wakes
  case h_2 hat =>
    cases hstep
    rw [hat] at hmatched
    cases hready : s.executor.ready with
    | true => exact h.workerLooks (by rw [hat]; rfl) rfl (by simp) (fun _ => hready) hmatched
    | false => exact h.workerLooks (by rw [hat]; rfl) rfl (fun _ => hready) (by simp) hmatched
  case h_3 hat =>
    cases hstep
    rw [hat] at hmatched
    exact h.unlockWorker (by rw [hat]; rfl) rfl (fun _ => h.waits hat) hmatched
  case h_4 => cases hstep
  case h_5 hat =>
    obtain ⟨hfree, rfl⟩ := map_lock_eq_some.mp hstep
    rw [hat] at hmatched
    exact h.lockWorker hfree hmatched
  -- `Run` takes an operation, or sees that there is none and returns
  case h_6 hat =>
    obtain ⟨executor, hwake, rfl⟩ := Option.map_eq_some_iff.mp hstep
    apply h.workerLooks (by rw [hat]; rfl) rfl (by simp) (by simp)
    obtain ⟨-, ⟨-, -, rfl⟩ | ⟨job, queue, -, rfl⟩⟩ := DatabaseExecutor.wake_eq_some hwake
    · simp [Matches]
    · simp [Matches]
  case h_7 hat =>
    cases hstep
    rw [hat] at hmatched
    cases hworker : s.executor.worker with
    | waiting => exact absurd hworker hmatched
    | running job =>
        exact h.unlockWorker (by rw [hat]; rfl) rfl (by simp) (by rw [hworker]; exact ⟨job, rfl⟩)
    | exited => exact h.unlockWorker (by rw [hat]; rfl) rfl (by simp) (by rw [hworker]; rfl)
  case h_8 hat =>
    obtain ⟨executor, hoperate, rfl⟩ := Option.map_eq_some_iff.mp hstep
    obtain ⟨job, -, rfl⟩ := DatabaseExecutor.operate_eq_some hoperate
    exact h.workerMoves (by rw [hat]; rfl) rfl (by simp) rfl
  case h_9 => cases hstep

theorem Wakeful.spuriousWakeup (h : s.Wakeful) (hstep : s.spuriousWakeup = some t) :
    t.Wakeful := by
  unfold Threads.spuriousWakeup at hstep
  split at hstep
  · next hat =>
      cases hstep
      have hmatched := h.matched
      rw [hat] at hmatched
      exact h.workerMoves (by rw [hat]; rfl) rfl (by simp) hmatched
  · cases hstep

end

theorem wakeful_init {service : σ} {queueCapacity : Nat} :
    Wakeful ({ executor := { service, queueCapacity } } : Threads σ Result) where
  workerHolds := by simp [WorkerAt.holds]
  callerHolds n := by simp [CallerAt.holds]
  waits hw := by cases hw
  takes hw := by cases hw
  blocks hw := by cases hw
  matched := rfl

/-- **The invariant holds in every interleaving of the threads.** -/
theorem wakeful_of_reachable {s : Threads σ workload.Result} (h : (runs workload).Reachable s) :
    s.Wakeful := by
  apply h.invariant
  · intro s hinit
    obtain ⟨service, queueCapacity, -, rfl⟩ := hinit
    exact wakeful_init
  · intro s event t hs hstep
    cases event with
    | submit n operation => exact hs.enter rfl hstep
    | asyncSubmit n operation => exact hs.enter rfl hstep
    | stop n => exact hs.enter rfl hstep
    | caller n => exact hs.callerStep hstep
    | worker environment => exact hs.workerStep hstep
    | spuriousWakeup => exact hs.spuriousWakeup hstep

/-- The worker never looks for a job in an empty queue: past the predicate it takes one or
returns. -/
theorem Wakeful.take_enabled {s : Threads σ Result} (h : s.Wakeful) (htaking : s.worker = .taking) :
    ∃ executor, s.executor.wake = some executor := by
  have hready := h.takes htaking
  have hmatched := h.matched
  rw [htaking] at hmatched
  have hworker : s.executor.worker = .waiting := hmatched
  unfold DatabaseExecutor.wake
  rw [hworker]
  cases hqueue : s.executor.queue with
  | nil =>
      have hstop : s.executor.stopping = true := by
        simpa [DatabaseExecutor.ready, hqueue] using hready
      exact ⟨_, if_pos hstop⟩
  | cons job queue => exact ⟨_, rfl⟩

/-! ## No lost wakeup -/

section

variable {s t : Threads σ workload.Result} {event : Event ω ε}

/-- Once the executor is stopping it stays so and accepts nothing more. -/
theorem next_stopping (hstop : s.executor.stopping = true) (h : s.next workload event = some t) :
    t.executor.stopping = true ∧ t.executor.accepted = s.executor.accepted := by
  have hrefused : ∀ completes operation, s.executor.enqueue completes operation =
      { s.executor with
        submissions := s.executor.submissions + 1
        rejected := s.executor.rejected ++
          [⟨{ submission := s.executor.submissions, completes, operation },
            .error DatabaseExecutor.stoppingError⟩] } := by
    intro completes operation
    simp only [DatabaseExecutor.enqueue, hstop, if_true]
  obtain hsame | ⟨step, hstep⟩ := next_executor h
  · rw [hsame]
    exact ⟨hstop, rfl⟩
  · cases step with
    | submit operation =>
        rw [← Option.some.inj hstep, DatabaseExecutor.submit, hrefused]
        exact ⟨hstop, rfl⟩
    | asyncSubmit operation =>
        rw [← Option.some.inj hstep, DatabaseExecutor.asyncSubmit, hrefused]
        exact ⟨hstop, rfl⟩
    | wake =>
        obtain ⟨-, ⟨-, -, heq⟩ | ⟨job, queue, -, heq⟩⟩ := DatabaseExecutor.wake_eq_some hstep
        · rw [heq]
          exact ⟨hstop, rfl⟩
        · rw [heq]
          exact ⟨hstop, rfl⟩
    | operate environment =>
        obtain ⟨job, -, heq⟩ := DatabaseExecutor.operate_eq_some hstep
        rw [heq]
        exact ⟨hstop, rfl⟩
    | stop =>
        rw [← Option.some.inj hstep]
        exact ⟨rfl, rfl⟩

theorem callerStep_worker {n : Nat} (h : s.callerStep n = some t) :
    t.worker = s.worker ∨ s.worker = .blocked := by
  have hnotify : s.notifyOne.worker = s.worker ∨ s.worker = .blocked := by
    grind [notifyOne]
  unfold callerStep at h
  split at h <;> simp only [map_lock_eq_some, Option.some.injEq, reduceCtorEq] at h
  all_goals grind [setCaller, unlock]

/-- The worker that has returned from `Run` does not come back. -/
theorem next_returned (hreturned : s.worker = .returned) (h : s.next workload event = some t) :
    t.worker = .returned := by
  have hkept : ∀ {n : Nat} {place : CallerAt ω}, s.enter n place = some t →
      t.worker = .returned := by
    intro n place h
    obtain ⟨-, rfl⟩ := enter_eq_some h
    exact hreturned
  cases event with
  | submit n operation => exact hkept h
  | asyncSubmit n operation => exact hkept h
  | stop n => exact hkept h
  | caller n =>
      obtain hsame | hblocked := callerStep_worker h
      · exact hsame.trans hreturned
      · rw [hreturned] at hblocked
        cases hblocked
  | worker environment => simp [next, workerStep, hreturned] at h
  | spuriousWakeup => simp [next, spuriousWakeup, hreturned] at h

/-- An owed notification needs nobody's help: after two statements of the thread that owes it, the
worker is awake. -/
theorem owed_notification_arrives {n : Nat} (h : (s.callers n).owesNotification = true) :
    (System.play (next workload) s [.caller n, .caller n]).worker ≠ .blocked := by
  have hawake : s.notifyOne.worker ≠ .blocked := notifyOne_not_blocked
  cases hat : s.callers n with
  | notifying =>
      have hfirst : s.callerStep n = some (s.notifyOne.setCaller n .unlocking) := by
        simp [callerStep, hat]
      have hsecond : (s.notifyOne.setCaller n .unlocking).callerStep n =
          some ((s.notifyOne.setCaller n .unlocking).unlock.setCaller n .away) := by
        simp [callerStep, setCaller]
      simp only [System.play, List.foldl_cons, List.foldl_nil, next, hfirst, hsecond,
        Option.getD_some]
      exact hawake
  | stopUnlocking =>
      -- the first statement gives the mutex back, the second notifies
      have hfirst : s.callerStep n = some (s.unlock.setCaller n .stopNotifying) := by
        simp [callerStep, hat]
      have hsecond : (s.unlock.setCaller n .stopNotifying).callerStep n =
          some ((s.unlock.setCaller n .stopNotifying).notifyOne.setCaller n .away) := by
        simp [callerStep, setCaller]
      simp only [System.play, List.foldl_cons, List.foldl_nil, next, hfirst, hsecond,
        Option.getD_some]
      exact notifyOne_not_blocked (s := s.unlock.setCaller n .stopNotifying)
  | stopNotifying =>
      have hfirst : s.callerStep n = some (s.notifyOne.setCaller n .away) := by
        simp [callerStep, hat]
      have hsecond : (s.notifyOne.setCaller n .away).callerStep n = none := by
        simp [callerStep, setCaller]
      simp only [System.play, List.foldl_cons, List.foldl_nil, next, hfirst, hsecond,
        Option.getD_some, Option.getD_none]
      exact hawake
  | _ =>
      rw [hat] at h
      cases h

/-- The predicate is false. -/
theorem ready_eq_false_iff {e : DatabaseExecutor σ Result} :
    e.ready = false ↔ e.queue = [] ∧ e.stopping = false := by
  simp [DatabaseExecutor.ready, and_comm]

/-- **No lost wakeup**, in every interleaving of submissions, stops, spurious wakeups and the
worker: the worker sleeps through nothing that it is not about to be told of, and when it has
returned there is nothing left to do for ever. -/
theorem no_lost_wakeup (h : (runs workload).Reachable s) :
    (s.worker = .blocked → ¬ s.NotificationPending →
      s.executor.queue = [] ∧ s.executor.stopping = false) ∧
    (∀ n, (s.callers n).owesNotification = true →
      (System.play (next workload) s [.caller n, .caller n]).worker ≠ .blocked) ∧
    ∀ t, ((runs workload).onwards s).Reachable t →
      (s.worker = .returned → t.worker = .returned ∧ t.executor.queue = []) ∧
      (s.executor.stopping = true →
        t.executor.stopping = true ∧ t.executor.accepted = s.executor.accepted) := by
  have hw := wakeful_of_reachable h
  refine ⟨?_, fun n => owed_notification_arrives, ?_⟩
  · intro hblocked hnone
    obtain hready | hpending := hw.blocks hblocked
    · exact ready_eq_false_iff.mp hready
    · exact absurd hpending hnone
  · intro t ht
    constructor
    · intro hreturned
      have hstays : t.worker = .returned :=
        ht.onwards_keeps (I := fun s => s.worker = .returned)
          (fun _ _ _ hs hstep => next_returned hs hstep) hreturned
      refine ⟨hstays, ?_⟩
      -- a worker that has returned has left the executor's loop, with an empty queue
      have hmatched := (wakeful_of_reachable (h.of_onwards ht)).matched
      rw [hstays] at hmatched
      exact ((DatabaseExecutor.inv_of_reachable
        (executor_reachable (h.of_onwards ht))).exits hmatched).2
    · intro hstop
      apply ht.onwards_keeps (I := fun t => t.executor.stopping = true ∧
        t.executor.accepted = s.executor.accepted)
      · intro t event t' ⟨hstop, haccepted⟩ hstep
        obtain ⟨hstop', haccepted'⟩ := next_stopping hstop hstep
        exact ⟨hstop', haccepted'.trans haccepted⟩
      · exact ⟨hstop, rfl⟩

end

/-! ### One submission between two sleeps, then a stop that the worker sleeps through -/

open RecipesCore.Db

/-- `n` statements of the worker. -/
def workerSteps (n : Nat) : List (Event ServiceOperation (List StepOutcome)) :=
  List.replicate n (.worker [])

/-- `n` statements of the first caller. -/
def callerSteps (n : Nat) : List (Event ServiceOperation (List StepOutcome)) :=
  List.replicate n (.caller 0)

/-- The worker blocks; a submission wakes it up; it blocks again; the executor stops, and the
notification is still to come. -/
def stoppedEvents : List (Event ServiceOperation (List StepOutcome)) :=
  workerSteps 3 ++ [.submit 0 .getProducts] ++ callerSteps 4 ++ workerSteps 8 ++ [.stop 0] ++
    callerSteps 3

/-- The threads after `stoppedEvents`. -/
def stopped : Threads DBManager serviceWorkload.Result :=
  System.play (next serviceWorkload) { executor := { service := {}, queueCapacity := 1 } }
    stoppedEvents

/-- The threads when the worker has returned. -/
def drained : Threads DBManager serviceWorkload.Result :=
  System.play (next serviceWorkload) stopped (callerSteps 1 ++ workerSteps 4)

theorem no_lost_wakeup_drained :
    ((drained.worker = .blocked → ¬ drained.NotificationPending →
        drained.executor.queue = [] ∧ drained.executor.stopping = false) ∧
      (∀ n, (drained.callers n).owesNotification = true →
        (System.play (next serviceWorkload) drained [.caller n, .caller n]).worker ≠ .blocked) ∧
      ∀ t, ((runs serviceWorkload).onwards drained).Reachable t →
        (drained.worker = .returned → t.worker = .returned ∧ t.executor.queue = []) ∧
        (drained.executor.stopping = true →
          t.executor.stopping = true ∧ t.executor.accepted = drained.executor.accepted)) ∧
    stopped.worker = .blocked ∧ stopped.executor.stopping = true ∧
    (stopped.callers 0).owesNotification = true ∧
    drained.worker = .returned ∧ drained.executor.stopping = true ∧
    (drained.executor.finished.map fun c => c.job.submission) = [0] :=
  ⟨no_lost_wakeup (System.Reachable.play (S := runs serviceWorkload) (fun _ _ _ h => h)
      (System.Reachable.play (S := runs serviceWorkload) (fun _ _ _ h => h)
        (.init ⟨{}, 1, Nat.one_pos, rfl⟩) stoppedEvents) _),
    by decide +kernel⟩

end Threads

end RecipesCore.App
