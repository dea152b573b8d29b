import Mathlib.Data.List.Basic
import RecipesCore.Logic.Transition

/-!
# Waiting for a stop signal

`main` waits on a condition variable until `RequestStop`, the signal handler, has set `requested`.
The handler sets the flag and notifies without the mutex, so both may happen after `main` has looked
at the flag and before it blocks: the notification is lost, and `main` blocks all the same. It then
takes another signal, or a spurious wakeup, to end the process.

`DatabaseExecutor::Stop` sets its flag under the mutex, which leaves no room between the look and
the blocking.
-/

namespace RecipesCore.Main

open RecipesCore.Logic

/-! ## State -/

/-- Where `main` is, from the lock on. Nobody else takes the mutex. -/
inductive MainAt where
  /-- `std::unique_lock lock(stop_state.mutex)`. -/
  | locking
  /-- In `wait`, at the predicate. -/
  | checking
  /-- In `wait`: the predicate was false. -/
  | waiting
  /-- In `wait`, without the mutex. -/
  | blocked
  /-- In `wait`: woken up, takes the mutex back. -/
  | relocking
  /-- `server.Stop();`. -/
  | stopping
  deriving DecidableEq, Repr

/-- Where an invocation of `RequestStop` is. -/
inductive HandlerAt where
  /-- `state.requested.store(true)`. -/
  | storing
  /-- `state.condition.notify_one()`. -/
  | notifying
  | finished
  deriving DecidableEq, Repr

structure StopState where
  requested : Bool := false
  main : MainAt := .locking
  /-- Every invocation so far. -/
  handlers : List HandlerAt := []
  deriving DecidableEq, Repr

/-! ## Steps -/

inductive StopEvent where
  /-- A signal is delivered: one more invocation of `RequestStop`. -/
  | signal
  | handler (i : Nat)
  | main
  | spuriousWakeup
  deriving DecidableEq, Repr

namespace StopState

/-- `notify_one` wakes `main` up when it is blocked, and is lost when it is not. -/
def notifyOne (s : StopState) : StopState :=
  match s.main with
  | .blocked => { s with main := .relocking }
  | _ => s

/-- The next statement of an invocation of `RequestStop`. -/
def requestStop (i : Nat) (s : StopState) : Option StopState :=
  match s.handlers[i]? with
  | some .storing => some { s with requested := true, handlers := s.handlers.set i .notifying }
  | some .notifying => some { s.notifyOne with handlers := s.handlers.set i .finished }
  | _ => none

/-- The next statement of `main`. -/
def mainStep (s : StopState) : Option StopState :=
  match s.main with
  | .locking => some { s with main := .checking }
  | .checking => some { s with main := if s.requested then .stopping else .waiting }
  | .waiting => some { s with main := .blocked }
  | .blocked => none
  | .relocking => some { s with main := .checking }
  | .stopping => none

def next (s : StopState) : StopEvent → Option StopState
  | .signal => some { s with handlers := s.handlers ++ [.storing] }
  | .handler i => s.requestStop i
  | .main => s.mainStep
  | .spuriousWakeup => if s.main = .blocked then some { s with main := .relocking } else none

/-- All interleavings. -/
def runs : System StopState StopEvent where
  init s := s = {}
  step s event t := s.next event = some t

/-- A stop was requested, nobody will notify any more, and `main` sleeps. -/
def Lost (s : StopState) : Prop :=
  s.main = .blocked ∧ s.requested = true ∧ ∀ handler ∈ s.handlers, handler = .finished

instance (s : StopState) : Decidable s.Lost := inferInstanceAs (Decidable (_ ∧ _))

/-- No `notify_one` falls between the look of `main` at the flag and its blocking, unless another
invocation is still to come to its own. -/
def Heard (s : StopState) : StopEvent → Prop
  | .handler i => s.handlers[i]? = some .notifying → s.main = .waiting →
      ∃ handler ∈ s.handlers.eraseIdx i, handler ≠ .finished
  | .signal | .main | .spuriousWakeup => True

instance (s : StopState) : (event : StopEvent) → Decidable (s.Heard event)
  | .handler _ => inferInstanceAs (Decidable (_ → _ → _))
  | .signal | .main | .spuriousWakeup => isTrue trivial

/-! ## The invariant -/

/-- Whoever has come past the store has set the flag. -/
def Stored (s : StopState) : Prop :=
  ∀ handler ∈ s.handlers, handler ≠ .storing → s.requested = true

/-- While `main` sleeps or is about to, somebody who has set the flag is still busy. -/
def Busy (s : StopState) : Prop :=
  s.requested = true → s.main = .waiting ∨ s.main = .blocked →
    ∃ handler ∈ s.handlers, handler ≠ .finished

structure Told (s : StopState) : Prop where
  stored : Stored s
  busy : Busy s

section

variable {s t : StopState} {event : StopEvent} {i : Nat}

theorem mem_set_of_mem_eraseIdx {handlers : List HandlerAt} {handler place : HandlerAt}
    (h : handler ∈ handlers.eraseIdx i) : handler ∈ handlers.set i place := by
  obtain ⟨j, hne, hj⟩ := List.mem_eraseIdx_iff_getElem?.mp h
  apply List.mem_of_getElem? (i := j)
  rw [List.getElem?_set_ne hne.symm]
  exact hj

theorem eq_or_mem_eraseIdx_of_mem_set {handlers : List HandlerAt} {handler place : HandlerAt}
    (h : handler ∈ handlers.set i place) : handler = place ∨ handler ∈ handlers.eraseIdx i := by
  obtain ⟨j, hj⟩ := List.mem_iff_getElem?.mp h
  by_cases hij : i = j
  · subst hij
    rw [List.getElem?_set_self'] at hj
    obtain ⟨_, _, rfl⟩ := Option.map_eq_some_iff.mp hj
    exact .inl rfl
  · rw [List.getElem?_set_ne hij] at hj
    exact .inr (List.mem_eraseIdx_iff_getElem?.mpr ⟨j, Ne.symm hij, hj⟩)

theorem notifyOne_requested : s.notifyOne.requested = s.requested := by
  unfold notifyOne
  split <;> rfl

theorem notifyOne_main_ne_blocked : s.notifyOne.main ≠ .blocked := by
  unfold notifyOne
  split
  · simp
  · assumption

/-- A notification that leaves `main` about to block was sent to nobody. -/
theorem waiting_of_notifyOne (h : s.notifyOne.main = .waiting) : s.main = .waiting := by
  unfold notifyOne at h
  split at h
  · cases h
  · exact h

theorem stored_of_next (hs : Stored s) (h : s.next event = some t) : Stored t := by
  cases event with
  | signal =>
      cases h
      intro handler hmem hne
      obtain hmem | hmem := List.mem_append.mp hmem
      · exact hs handler hmem hne
      · exact absurd (List.mem_singleton.mp hmem) hne
  | handler i =>
      simp only [next, requestStop] at h
      split at h
      · cases h
        intro _ _ _
        rfl
      · next hi =>
          cases h
          intro _ _ _
          show s.notifyOne.requested = true
          rw [notifyOne_requested]
          exact hs _ (List.mem_of_getElem? hi) (by simp)
      · cases h
  | main =>
      simp only [next, mainStep] at h
      split at h <;> cases h <;> exact hs
  | spuriousWakeup =>
      simp only [next] at h
      split at h <;> cases h
      exact hs

theorem busy_of_requestStop (hheard : s.Heard (.handler i)) (h : s.requestStop i = some t) :
    Busy t := by
  unfold requestStop at h
  split at h
  · next hi =>
      -- The handler itself is still to notify.
      cases h
      intro _ _
      refine ⟨.notifying, ?_, by simp⟩
      apply List.mem_of_getElem? (i := i)
      rw [List.getElem?_set_self']
      simp [hi]
  · next hi =>
      cases h
      intro _ hmain
      have hwaiting : s.main = .waiting := by
        obtain hmain | hmain := hmain
        · exact waiting_of_notifyOne hmain
        · exact absurd hmain notifyOne_main_ne_blocked
      obtain ⟨handler, hmem, hne⟩ := hheard hi hwaiting
      exact ⟨handler, mem_set_of_mem_eraseIdx hmem, hne⟩
  · cases h

theorem busy_of_mainStep (hs : Busy s) (h : s.mainStep = some t) : Busy t := by
  unfold mainStep at h
  split at h
  · cases h
    simp [Busy]
  · -- The flag that `main` has just read is not set.
    cases h
    intro hrequested hmain
    rw [show s.requested = true from hrequested] at hmain
    simp at hmain
  · next hwaiting =>
      cases h
      intro hrequested _
      exact hs hrequested (.inl hwaiting)
  · cases h
  · cases h
    simp [Busy]
  · cases h

theorem busy_of_next (hs : Busy s) (hheard : s.Heard event) (h : s.next event = some t) :
    Busy t := by
  cases event with
  | signal =>
      cases h
      intro _ _
      exact ⟨.storing, by simp, by simp⟩
  | handler i => exact busy_of_requestStop hheard h
  | main => exact busy_of_mainStep hs h
  | spuriousWakeup =>
      simp only [next] at h
      split at h <;> cases h
      simp [Busy]

theorem told_of_next (hs : s.Told) (hheard : s.Heard event) (h : s.next event = some t) : t.Told :=
  ⟨stored_of_next hs.stored h, busy_of_next hs.busy hheard h⟩

theorem told_of_reachable (h : (runs.restrict Heard).Reachable s) : s.Told := by
  apply h.invariant
  · intro s hinit
    rw [show s = {} from hinit]
    exact ⟨by simp [Stored], by simp [Busy]⟩
  · intro s event t hs hstep
    exact told_of_next hs hstep.1 hstep.2

theorem Told.not_lost (hs : s.Told) : ¬ s.Lost := by
  intro ⟨hmain, hrequested, hfinished⟩
  obtain ⟨handler, hmem, hne⟩ := hs.busy hrequested (.inr hmain)
  exact hne (hfinished handler hmem)

/-- A notification that comes too early leaves `main` one step from sleeping through it. -/
theorem lost_of_not_heard (hs : s.Told) (hheard : ¬ s.Heard event) (h : s.next event = some t) :
    ∃ t', t.next .main = some t' ∧ t'.Lost := by
  cases event with
  | signal | main | spuriousWakeup => exact absurd trivial hheard
  | handler i =>
      have ⟨hi, hwaiting, hfinished⟩ : s.handlers[i]? = some .notifying ∧ s.main = .waiting ∧
          ∀ handler ∈ s.handlers.eraseIdx i, handler = .finished := by
        simpa [Heard] using hheard
      have ht : t = { s with handlers := s.handlers.set i .finished } := by
        simpa [StopState.next, requestStop, hi, notifyOne, hwaiting] using h.symm
      have hrequested := hs.stored _ (List.mem_of_getElem? hi) (by simp)
      refine ⟨{ t with main := .blocked }, ?_, rfl, ?_, ?_⟩
      · rw [ht]
        simp only [StopState.next, mainStep, hwaiting]
      · rw [ht]
        exact hrequested
      · rw [ht]
        intro handler hmem
        obtain h | h := eq_or_mem_eraseIdx_of_mem_set hmem
        · exact h
        · exact hfinished handler h

/-- When no step lets a notification through between the look and the blocking, but for those that
another one will follow, the signal is not lost. Any other step of the kind loses it. -/
theorem stop_signal_kept (h : (runs.restrict Heard).Reachable s) :
    ¬ s.Lost ∧ ∀ event t, ¬ s.Heard event → s.next event = some t →
      ∃ t', t.next .main = some t' ∧ t'.Lost := by
  have hs := told_of_reachable h
  constructor
  · exact hs.not_lost
  · intro event t hheard hstep
    exact lost_of_not_heard hs hheard hstep

/-- Two signals, one of them while `main` looks at the flag. Both are heard, and `main` goes on to
`Stop`. -/
theorem stop_signal_kept_twice :
    let s := System.play
      (fun (s : StopState) event => if s.Heard event then s.next event else none) {}
      [.main, .main, .signal, .handler 0, .signal, .handler 0, .main, .handler 1, .handler 1,
        .main, .main]
    s.main = .stopping ∧ ¬ s.Lost := by
  refine ⟨by decide, ?_⟩
  apply And.left
  apply stop_signal_kept
  exact .play_restrict (fun _ _ _ h => h) rfl _

/-- One signal, after `main` has looked at the flag and before it blocks. -/
theorem stop_signal_lost : ∃ s : StopState, runs.Reachable s ∧ s.Lost :=
  ⟨System.play next {} [.main, .main, .signal, .handler 0, .handler 0, .main],
    .play (fun _ _ _ h => h) (.init rfl) _, by decide⟩

/-- After the loss `main` sleeps until there is another signal, or a spurious wakeup. -/
theorem Lost.next_eq_none (hs : s.Lost) (hsignal : event ≠ .signal)
    (hwakeup : event ≠ .spuriousWakeup) : s.next event = none := by
  obtain ⟨hmain, -, hfinished⟩ := hs
  cases event with
  | signal => exact absurd rfl hsignal
  | spuriousWakeup => exact absurd rfl hwakeup
  | main => simp only [StopState.next, mainStep, hmain]
  | handler i =>
      simp only [StopState.next, requestStop]
      cases hi : s.handlers[i]? with
      | none => rfl
      | some place => rw [hfinished place (List.mem_of_getElem? hi)]

end

end StopState

end RecipesCore.Main
