import RecipesCore.App.Threads
import RecipesCore.Logic.Rest

/-!
# The threads of `app::DatabaseExecutor` come to rest

No thread can wait for ever. Every statement of the worker and of the threads in `Submit`,
`AsyncSubmit` and `Stop` is paid for by a call or a spurious wakeup, so there are only so many of
them; and where none is enabled, every call has returned, every submission is completed, and the
worker sleeps, or has returned if somebody called `Stop`. The destructor joins the worker after
`Stop`, so it does not hang.
-/

namespace RecipesCore.App.Threads

open RecipesCore.Logic

variable {ω σ ε : Type} {Result : ω → Type}

/-! ## What is still to do -/

/-- The statements a thread has still to run in its call, with those that its submission and its
notification make the worker run. -/
def callerCost : CallerAt ω → Nat
  | .away => 0
  | .locking _ _ => 13
  | .enqueuing _ _ => 12
  | .notifying => 6
  | .unlocking => 1
  | .stopLocking => 8
  | .stopSetting => 7
  | .stopUnlocking => 6
  | .stopNotifying => 5

/-- The statements of the worker up to its next sleep or its return, without what is queued. -/
def workerCost (place : WorkerAt) (worker : Worker ω) : Nat :=
  match place with
  | .blocked | .returned => 0
  | .waiting => 1
  | .taking => 2
  | .checking => 3
  | .locking | .relocking => 4
  | .operating => 5
  | .unlocking =>
      match worker with
      | .running _ => 6
      | _ => 1

namespace Event

/-- The worker and the threads that are in a call go on by themselves. -/
def own : Event ω ε → Bool
  | .caller _ | .worker _ => true
  | _ => false

def cost : Event ω ε → Nat
  | .submit _ _ | .asyncSubmit _ _ => 13
  | .stop _ => 8
  | .spuriousWakeup => 4
  | .caller _ | .worker _ => 0

end Event

/-- `n` pays for everything that is still to do. -/
def Affords (s : Threads σ Result) (n : Nat) : Prop :=
  ∃ callers, Costs callerCost s.callers callers ∧
    callers + workerCost s.worker s.executor.worker + 5 * s.executor.queue.length = n

section

variable {s t : Threads σ Result} {n callers : Nat} {place : CallerAt ω}

/-- A thread is somewhere else, the worker and the queue are what they are now. -/
theorem Affords.setCaller (h : Costs callerCost s.callers callers) (n : Nat) (place : CallerAt ω)
    (t : Threads σ Result) (hcallers : t.callers = s.callers) :
    ∃ m, (t.setCaller n place).Affords m ∧ m + callerCost (s.callers n) =
      callers + callerCost place + workerCost t.worker t.executor.worker +
        5 * t.executor.queue.length := by
  obtain ⟨m, hm, heq⟩ := h.update n place
  refine ⟨_, ⟨m, ?_, rfl⟩, ?_⟩
  · show Costs callerCost (Function.update t.callers n place) m
    rwa [hcallers]
  · show m + workerCost t.worker t.executor.worker + 5 * t.executor.queue.length + _ = _
    omega

@[simp] theorem unlock_executor : s.unlock.executor = s.executor := rfl

/-- Waking the worker up costs its way back to sleep. -/
theorem workerCost_notifyOne : workerCost s.notifyOne.worker s.executor.worker ≤
    workerCost s.worker s.executor.worker + 4 := by
  unfold notifyOne
  split
  · next hat => simp [workerCost, hat]
  · omega

theorem enqueue_worker_queue (completes : Completes) (operation : ω) (e : DatabaseExecutor σ Result) :
    (e.enqueue completes operation).worker = e.worker ∧
      (e.enqueue completes operation).queue.length =
        if e.Admits then e.queue.length + 1 else e.queue.length := by
  by_cases hadmits : e.Admits
  · rw [DatabaseExecutor.enqueue_of_admits hadmits, if_pos hadmits]
    exact ⟨rfl, by simp⟩
  · obtain ⟨error, -, heq⟩ := DatabaseExecutor.enqueue_of_not_admits hadmits
    rw [heq, if_neg hadmits]
    exact ⟨rfl, rfl⟩

/-- A statement of a call is paid for by the call. -/
theorem Affords.callerStep (h : s.Affords callers) (hstep : s.callerStep n = some t) :
    ∃ m, m < callers ∧ t.Affords m := by
  obtain ⟨others, hcosts, rfl⟩ := h
  have hmoves := Affords.setCaller hcosts n
  unfold Threads.callerStep at hstep
  split at hstep
  case h_1 => cases hstep
  case h_2 completes operation hat =>
    obtain ⟨-, rfl⟩ := map_lock_eq_some.mp hstep
    obtain ⟨m, hm, heq⟩ := hmoves (.enqueuing completes operation)
      { s with mutex := some (.caller n) } rfl
    exact ⟨m, by simp only [hat, callerCost] at heq; omega, hm⟩
  -- what is accepted pays for its own way through the worker
  case h_3 completes operation hat =>
    cases hstep
    obtain ⟨hworker, hqueue⟩ := enqueue_worker_queue completes operation s.executor
    obtain ⟨m, hm, heq⟩ := hmoves (if s.executor.Admits then .notifying else .unlocking)
      { s with executor := s.executor.enqueue completes operation } rfl
    refine ⟨m, ?_, hm⟩
    simp only [hat, hworker, hqueue] at heq
    split at heq
    · simp only [callerCost] at heq
      omega
    · simp only [callerCost] at heq
      omega
  case h_4 hat =>
    cases hstep
    obtain ⟨m, hm, heq⟩ := hmoves .unlocking s.notifyOne notifyOne_callers
    have hwake := workerCost_notifyOne (s := s)
    exact ⟨m, by simp only [hat, callerCost, notifyOne_executor] at heq; omega, hm⟩
  case h_5 hat =>
    cases hstep
    obtain ⟨m, hm, heq⟩ := hmoves .away s.unlock rfl
    exact ⟨m, by simp only [hat, callerCost, unlock] at heq; omega, hm⟩
  case h_6 hat =>
    obtain ⟨-, rfl⟩ := map_lock_eq_some.mp hstep
    obtain ⟨m, hm, heq⟩ := hmoves .stopSetting { s with mutex := some (.caller n) } rfl
    exact ⟨m, by simp only [hat, callerCost] at heq; omega, hm⟩
  case h_7 hat =>
    cases hstep
    obtain ⟨m, hm, heq⟩ := hmoves .stopUnlocking { s with executor := s.executor.stop } rfl
    exact ⟨m, by simp only [hat, callerCost, DatabaseExecutor.stop] at heq; omega, hm⟩
  case h_8 hat =>
    cases hstep
    obtain ⟨m, hm, heq⟩ := hmoves .stopNotifying s.unlock rfl
    exact ⟨m, by simp only [hat, callerCost, unlock] at heq; omega, hm⟩
  case h_9 hat =>
    cases hstep
    obtain ⟨m, hm, heq⟩ := hmoves .away s.notifyOne notifyOne_callers
    have hwake := workerCost_notifyOne (s := s)
    exact ⟨m, by simp only [hat, callerCost, notifyOne_executor] at heq; omega, hm⟩

variable {invoke : (operation : ω) → ε → σ → Outcome (Result operation) × σ} {environment : ε}

/-- The worker gets nearer to its next sleep, or to the end of the queue. -/
theorem Affords.workerStep (h : s.Affords callers)
    (hstep : s.workerStep invoke environment = some t) : ∃ m, m < callers ∧ t.Affords m := by
  obtain ⟨others, hcosts, rfl⟩ := h
  -- the callers are where they were
  have hmoves : ∀ {executor : DatabaseExecutor σ Result} {mutex worker},
      workerCost worker executor.worker + 5 * executor.queue.length <
        workerCost s.worker s.executor.worker + 5 * s.executor.queue.length →
      ∃ m, m < others + workerCost s.worker s.executor.worker + 5 * s.executor.queue.length ∧
        Affords { s with executor, mutex, worker } m := by
    intro executor mutex worker hlt
    refine ⟨others + workerCost worker executor.worker + 5 * executor.queue.length, ?_,
      others, hcosts, rfl⟩
    omega
  unfold Threads.workerStep at hstep
  split at hstep
  case h_1 hat =>
    obtain ⟨-, rfl⟩ := map_lock_eq_some.mp hstep
    exact hmoves (by simp [hat, workerCost])
  case h_2 hat =>
    cases hstep
    refine hmoves ?_
    rw [hat]
    split
    · simp [workerCost]
    · simp [workerCost]
  case h_3 hat =>
    cases hstep
    exact hmoves (by simp [hat, workerCost])
  case h_4 => cases hstep
  case h_5 hat =>
    obtain ⟨-, rfl⟩ := map_lock_eq_some.mp hstep
    exact hmoves (by simp [hat, workerCost])
  case h_6 hat =>
    obtain ⟨executor, hwake, rfl⟩ := Option.map_eq_some_iff.mp hstep
    refine hmoves ?_
    obtain ⟨-, ⟨-, -, rfl⟩ | ⟨job, queue, hqueue, rfl⟩⟩ := DatabaseExecutor.wake_eq_some hwake
    · simp [hat, workerCost]
    · simp only [hat, workerCost, hqueue, List.length_cons]
      omega
  case h_7 hat =>
    cases hstep
    refine hmoves ?_
    rw [hat]
    cases s.executor.worker with
    | waiting => simp [workerCost]
    | running job => simp [workerCost]
    | exited => simp [workerCost]
  case h_8 hat =>
    obtain ⟨executor, hoperate, rfl⟩ := Option.map_eq_some_iff.mp hstep
    obtain ⟨job, -, rfl⟩ := DatabaseExecutor.operate_eq_some hoperate
    exact hmoves (by simp [hat, workerCost])
  case h_9 => cases hstep

/-- Entering a call brings along what it will cost. -/
theorem Affords.enter (h : s.Affords callers) (hstep : s.enter n place = some t) :
    ∃ m, m ≤ callers + callerCost place ∧ t.Affords m := by
  obtain ⟨others, hcosts, rfl⟩ := h
  obtain ⟨haway, rfl⟩ := enter_eq_some hstep
  obtain ⟨m, hm, heq⟩ := Affords.setCaller hcosts n place s rfl
  exact ⟨m, by simp only [haway, callerCost] at heq ⊢; omega, hm⟩

theorem Affords.spuriousWakeup (h : s.Affords callers) (hstep : s.spuriousWakeup = some t) :
    ∃ m, m ≤ callers + 4 ∧ t.Affords m := by
  obtain ⟨others, hcosts, rfl⟩ := h
  unfold Threads.spuriousWakeup at hstep
  split at hstep
  · next hat =>
      cases hstep
      refine ⟨_, ?_, others, hcosts, rfl⟩
      simp only [hat, workerCost]
      omega
  · cases hstep

end

variable (workload : Workload ω σ ε)

/-- **Every statement is paid for.** -/
theorem budget : (runs workload).Budget Event.own Event.cost Affords where
  spends {s event t n} h hstep hown := by
    cases event with
    | caller k => exact h.callerStep hstep
    | worker environment => exact h.workerStep hstep
    | submit | asyncSubmit | stop | spuriousWakeup => cases hown
  earns {s event t n} h hstep hown := by
    cases event with
    | submit k operation => exact h.enter hstep
    | asyncSubmit k operation => exact h.enter hstep
    | stop k => exact h.enter hstep
    | spuriousWakeup => exact h.spuriousWakeup hstep
    | caller | worker => cases hown

variable {workload} {s : Threads σ workload.Result}

/-- A constructed executor has only to put its worker to sleep. -/
theorem affords_init (h : (runs workload).init s) : s.Affords 4 := by
  obtain ⟨service, queueCapacity, -, rfl⟩ := h
  exact ⟨0, Costs.zero fun _ => rfl, rfl⟩

/-! ## At rest -/

theorem callerStep_enabled {n : Nat} (hfree : s.mutex = none) (hin : s.callers n ≠ .away) :
    ∃ t, s.callerStep n = some t := by
  unfold callerStep
  split
  · next hat => exact absurd hat hin
  all_goals simp [lock, hfree]

/-- Whoever has the mutex can go on. -/
theorem holder_enabled (h : s.Wakeful) (environment : ε) {thread : Thread}
    (hholds : s.mutex = some thread) :
    ∃ event t, Event.own event = true ∧ s.next workload event = some t := by
  cases thread with
  | worker =>
      have hat := h.workerHolds.mpr hholds
      refine ⟨.worker environment, ?_⟩
      simp only [Event.own, next, workerStep, true_and]
      split <;> rename_i hplace <;> rw [hplace] at hat <;> try cases hat
      · exact ⟨_, rfl⟩
      · exact ⟨_, rfl⟩
      · obtain ⟨executor, hwake⟩ := h.take_enabled hplace
        exact ⟨_, by rw [hwake]; rfl⟩
      · exact ⟨_, rfl⟩
  | caller n =>
      have hat := (h.callerHolds n).mpr hholds
      refine ⟨.caller n, ?_⟩
      simp only [Event.own, next, callerStep, true_and]
      split <;> rename_i hplace <;> rw [hplace] at hat <;> try cases hat
      all_goals exact ⟨_, rfl⟩

/-- At rest nobody is in a call, and the worker sleeps over an empty queue or has returned. -/
theorem atRest_cases (h : s.Wakeful) (environment : ε) (hrest : (runs workload).AtRest Event.own s) :
    (∀ n, s.callers n = .away) ∧
      (s.worker = .blocked ∧ s.executor.ready = false ∨ s.worker = .returned) := by
  have hfree : s.mutex = none := by
    cases hmutex : s.mutex with
    | none => rfl
    | some thread =>
        obtain ⟨event, t, hown, hstep⟩ := holder_enabled h environment hmutex
        exact absurd hstep (hrest event t hown)
  have haway : ∀ n, s.callers n = .away := by
    intro n
    by_contra hin
    obtain ⟨t, hstep⟩ := callerStep_enabled hfree hin
    exact hrest (.caller n) t rfl hstep
  refine ⟨haway, ?_⟩
  have hstuck : s.workerStep workload.invoke environment = none := by
    cases hstep : s.workerStep workload.invoke environment with
    | none => rfl
    | some t => exact absurd hstep (hrest (.worker environment) t rfl)
  have hnone : ¬ s.NotificationPending := by
    rintro ⟨n, howes⟩
    rw [haway n] at howes
    cases howes
  cases hat : s.worker with
  | blocked => exact Or.inl ⟨rfl, (h.blocks hat).resolve_right hnone⟩
  | returned => exact Or.inr rfl
  | operating =>
      have hmatched := h.matched
      rw [hat] at hmatched
      obtain ⟨job, hjob⟩ := hmatched
      simp [workerStep, hat, DatabaseExecutor.operate, hjob] at hstuck
  | taking =>
      obtain ⟨executor, hwake⟩ := h.take_enabled hat
      simp [workerStep, hat, hwake] at hstuck
  | locking | relocking | checking | waiting | unlocking =>
      simp [workerStep, hat, lock, hfree] at hstuck

/-- With nothing pending, every submission is completed, and none of them twice. -/
theorem completed_of_pending_nil {e : DatabaseExecutor σ workload.Result}
    (h : DatabaseExecutor.Inv workload e) (hpending : e.pending = []) :
    (e.completed.map fun c => c.job.submission).Perm (List.range e.submissions) := by
  have haccepted : e.accepted = e.finished.map fun c => c.job := by
    rw [h.accepted_eq, List.append_assoc]
    exact (congrArg _ hpending).trans (List.append_nil _)
  have hnumbers : e.numbers = (e.finished ++ e.rejected).map fun c => c.job.submission := by
    rw [DatabaseExecutor.numbers, haccepted, ← List.map_append, List.map_map]
    rfl
  have hcompleted : (e.completed.map fun c => c.job.submission).Perm e.numbers := by
    rw [hnumbers]
    exact List.perm_append_comm.map _
  exact hcompleted.trans h.numbered

/-- What the executor has come to when no thread can go on. -/
structure Drained (s : Threads σ Result) : Prop where
  returned : ∀ n, s.callers n = .away
  pending : s.executor.pending = []
  /-- Each submission once. -/
  completed : (s.executor.completed.map fun c => c.job.submission).Perm
    (List.range s.executor.submissions)
  worker : s.worker = if s.executor.stopping then .returned else .blocked

theorem drained_of_atRest (h : (runs workload).Reachable s) (environment : ε)
    (hrest : (runs workload).AtRest Event.own s) : s.Drained := by
  have hw := wakeful_of_reachable h
  have hinv := DatabaseExecutor.inv_of_reachable (executor_reachable h)
  obtain ⟨haway, hworker⟩ := atRest_cases hw environment hrest
  have hmatched := hw.matched
  obtain ⟨hblocked, hready⟩ | hreturned := hworker
  · obtain ⟨hqueue, hstop⟩ := ready_eq_false_iff.mp hready
    rw [hblocked] at hmatched
    have hwaiting : s.executor.worker = .waiting := hmatched
    have hpending : s.executor.pending = [] := by
      simp [DatabaseExecutor.pending, hwaiting, Worker.job, hqueue]
    exact ⟨haway, hpending, completed_of_pending_nil hinv hpending, by simp [hblocked, hstop]⟩
  · rw [hreturned] at hmatched
    have hexited : s.executor.worker = .exited := hmatched
    obtain ⟨hstop, hqueue⟩ := hinv.exits hexited
    have hpending : s.executor.pending = [] := by
      simp [DatabaseExecutor.pending, hexited, Worker.job, hqueue]
    exact ⟨haway, hpending, completed_of_pending_nil hinv hpending, by simp [hreturned, hstop]⟩

/-- **No thread waits for ever.** The statements of a run are bounded by the calls and the spurious
wakeups in it; wherever no thread can go on, every submission is completed once; and from every
state the threads alone get there. -/
theorem threads_come_to_rest {start : Threads σ workload.Result} {events : List (Event ω ε)}
    (hinit : (runs workload).init start) (hrun : (runs workload).Run start events s)
    (environment : ε) :
    events.countP Event.own ≤ 4 + (events.map Event.cost).sum ∧
    ((runs workload).AtRest Event.own s → s.Drained) ∧
    ∃ more t, (runs workload).Run s more t ∧ (∀ event ∈ more, Event.own event = true) ∧
      t.Drained := by
  have hreach : (runs workload).Reachable s := hrun.reachable (.init hinit)
  have hbudget := budget workload
  obtain ⟨n, hn, -⟩ := hbudget.balance (affords_init hinit) hrun
  refine ⟨hbudget.own_le (affords_init hinit) hrun, drained_of_atRest hreach environment, ?_⟩
  obtain ⟨more, t, hmore, hown, hrest⟩ := hbudget.exists_atRest hn
  exact ⟨more, t, hmore, hown, drained_of_atRest (hmore.reachable hreach) environment hrest⟩

/-! ### A submission, a stop, and nothing left to do -/

open RecipesCore.Db

/-- The worker sleeps, runs a submission, sleeps, and returns after a `Stop`. -/
def drainedEvents : List (Event ServiceOperation (List StepOutcome)) :=
  stoppedEvents ++ callerSteps 1 ++ workerSteps 4

def drainedRun : Option (Threads DBManager serviceWorkload.Result) :=
  drainedEvents.foldlM (next serviceWorkload) { executor := { service := {}, queueCapacity := 1 } }

theorem drainedRun_isSome : drainedRun.isSome = true := by decide +kernel

/-- 23 statements ran, of the 25 that were paid for. -/
theorem threads_come_to_rest_drained :
    (drainedEvents.countP Event.own ≤ 4 + (drainedEvents.map Event.cost).sum ∧
      ((runs serviceWorkload).AtRest Event.own (drainedRun.get drainedRun_isSome) →
        (drainedRun.get drainedRun_isSome).Drained) ∧
      ∃ more t, (runs serviceWorkload).Run (drainedRun.get drainedRun_isSome) more t ∧
        (∀ event ∈ more, Event.own event = true) ∧ t.Drained) ∧
    drainedEvents.countP Event.own = 23 ∧ 4 + (drainedEvents.map Event.cost).sum = 25 ∧
    (drainedRun.get drainedRun_isSome).worker = .returned :=
  ⟨threads_come_to_rest ⟨{}, 1, Nat.one_pos, rfl⟩
      (System.Run.of_foldlM (fun _ _ _ h => h) (Option.some_get drainedRun_isSome).symm) [],
    by decide +kernel⟩

end RecipesCore.App.Threads
