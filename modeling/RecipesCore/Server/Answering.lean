import RecipesCore.Logic.Rest
import RecipesCore.Server.Serving

/-!
# Every request is answered

No request is left at a `co_await` for ever, whatever the queue's capacity and whenever the executor
is stopped. A coroutine makes at most two submissions (`Task.Counted`), each of which costs one step
of the coroutine, the worker's move to it, its run and the delivery of its result; `load` adds up
what is still to come. A suspended request has its submission somewhere on its way (`Awaiting`), so
nothing but an answered request has no next step.
-/

namespace RecipesCore.App.ServiceOperation

/-- The submissions of a handler that starts with this operation: an update reads back. -/
def rounds : ServiceOperation → Nat
  | .updateProduct _ _ | .updateRecipe _ _ => 2
  | _ => 1

theorem rounds_pos (operation : ServiceOperation) : 0 < operation.rounds := by
  cases operation <;> simp [rounds]

end RecipesCore.App.ServiceOperation

namespace RecipesCore.Net

open RecipesCore.Api
open RecipesCore.App RecipesCore.App.DatabaseExecutor
open RecipesCore.Db
open RecipesCore.Logic
open RecipesCore.Types

/-! ## Submissions of a coroutine -/

def Task.rounds : Task → Nat
  | .done _ => 0
  | .submit operation _ => operation.rounds

/-- However a submission comes back, fewer are left. -/
def Task.Counted : Task → Prop
  | .done _ => True
  | .submit operation resume =>
      ∀ result, (resume result).rounds < operation.rounds ∧ (resume result).Counted

theorem Task.rounds_le (task : Task) : task.rounds ≤ 2 := by
  cases task with
  | done => exact Nat.zero_le 2
  | submit operation => cases operation <;> simp [rounds, ServiceOperation.rounds]

namespace Router

variable {router : Router} {request : Request}

/-- A submission whose result is answered at once. -/
theorem answering_counted {operation : ServiceOperation} {resume : Expected operation.Result → Task}
    (h : ∀ result, ∃ response, resume result = .done response) :
    (Task.submit operation resume).Counted := by
  intro result
  obtain ⟨response, hresponse⟩ := h result
  rw [hresponse]
  exact ⟨operation.rounds_pos, trivial⟩

theorem orAppError_done {α : Type} {k : α → Task} (h : ∀ a, ∃ response, k a = .done response)
    (result : Expected α) : ∃ response, router.orAppError request k result = .done response := by
  cases result with
  | error error => exact ⟨_, rfl⟩
  | ok a => exact h a

theorem found_done {α : Type} {missing what : String} {serialize : α → Except String String}
    (object : Option α) :
    ∃ response, router.found request missing what serialize object = .done response := by
  cases object with
  | none => exact ⟨_, rfl⟩
  | some a => exact ⟨_, rfl⟩

theorem getProduct_counted (productId : Int) : (router.getProduct request productId).Counted :=
  answering_counted (orAppError_done found_done)

theorem getRecipe_counted (recipeId : Int) : (router.getRecipe request recipeId).Counted :=
  answering_counted (orAppError_done found_done)

/-- An update is followed by one read at most. -/
theorem update_counted {operation : ServiceOperation} {k : operation.Result → Task}
    (htwo : operation.rounds = 2) (hread : ∀ a, (k a).rounds = 1 ∧ (k a).Counted) :
    (Task.submit operation (router.orAppError request k)).Counted := by
  intro result
  rw [htwo]
  cases result with
  | error error => exact ⟨Nat.zero_lt_two, trivial⟩
  | ok a =>
      obtain ⟨hone, hcounted⟩ := hread a
      exact ⟨by simp [orAppError, hone], hcounted⟩

theorem withBody_counted {α : Type} {parse : String → Except (Status × String) α} {k : α → Task}
    (h : ∀ a, (k a).Counted) : (router.withBody request parse k).Counted := by
  unfold withBody
  split
  · split
    · trivial
    · exact h _
  · trivial

theorem handleProducts_counted (productId : Option Int) :
    (router.handleProducts request productId).Counted := by
  unfold handleProducts
  split
  · split
    · exact withBody_counted fun _ => answering_counted (orAppError_done fun _ => ⟨_, rfl⟩)
    · exact withBody_counted fun _ => update_counted rfl fun _ => ⟨rfl, getProduct_counted _⟩
    · exact answering_counted (orAppError_done fun _ => ⟨_, rfl⟩)
    · exact getProduct_counted _
    · exact answering_counted (orAppError_done fun _ => ⟨_, rfl⟩)
    · trivial
  · trivial

theorem handleRecipes_counted (cookable : Bool) : (router.handleRecipes request cookable).Counted := by
  unfold handleRecipes
  split
  · split
    · exact answering_counted (orAppError_done fun _ => ⟨_, rfl⟩)
    · exact answering_counted (orAppError_done fun _ => ⟨_, rfl⟩)
  · trivial

theorem handleRecipeItem_counted (recipeId : Int) :
    (router.handleRecipeItem request recipeId).Counted := by
  unfold handleRecipeItem
  split
  · split
    · exact getRecipe_counted _
    · exact withBody_counted fun _ => update_counted rfl fun _ => ⟨rfl, getRecipe_counted _⟩
    · exact answering_counted (orAppError_done fun _ => ⟨_, rfl⟩)
    · trivial
  · trivial

/-- **Every handler makes at most two submissions.** -/
theorem handleAsync_counted : (router.handleAsync request).Counted := by
  simp only [handleAsync]
  split
  · exact handleProducts_counted _
  · split
    · split
      · split
        · exact withBody_counted fun _ => answering_counted (orAppError_done fun _ => ⟨_, rfl⟩)
        · split
          · exact handleRecipes_counted _
          · trivial
      · trivial
    · split
      · exact handleRecipeItem_counted _
      · trivial

end Router

/-! ## What is still to come -/

/-- The steps of a coroutine that runs: for each submission the `co_await`, the worker's two steps
and the delivery, and the answer. -/
def Progress.load : Progress → Nat
  | .running task => 4 * task.rounds + 1
  | .suspended | .answered _ => 0

/-- The worker's step to its exit counts, too. -/
def workerLoad : Worker Ticket → Nat
  | .waiting => 1
  | .running job => 4 * job.operation.operation.rounds
  | .exited => 0

def queueLoad (job : Job Ticket) : Nat := 4 * job.operation.operation.rounds

def postedLoad (c : Completion ticketWorkload.Result) : Nat :=
  4 * (c.job.operation.resume c.result).rounds + 2

/-- One element changes, and the sum with it. -/
theorem sum_map_modify {α : Type} (g : α → Nat) (f : α → α) {l : List α} {i : Nat} {a : α}
    (h : l[i]? = some a) : ((l.modify i f).map g).sum + g a = (l.map g).sum + g (f a) := by
  induction l generalizing i with
  | nil => simp at h
  | cons b l ih =>
      cases i with
      | zero =>
          obtain rfl : b = a := by simpa using h
          simp only [List.modify_zero_cons, List.map_cons, List.sum_cons]
          omega
      | succ i =>
          have := ih (i := i) (by simpa using h)
          simp only [List.modify_succ_cons, List.map_cons, List.sum_cons]
          omega

theorem sum_map_eraseIdx {α : Type} (g : α → Nat) {l : List α} {k : Nat} {a : α}
    (h : l[k]? = some a) : ((l.eraseIdx k).map g).sum + g a = (l.map g).sum := by
  obtain ⟨hk, rfl⟩ := List.getElem?_eq_some_iff.mp h
  have hperm := ((List.getElem_cons_eraseIdx_perm hk).map g).sum_eq
  rw [List.map_cons, List.sum_cons] at hperm
  omega

namespace ServingEvent

/-- The coroutines, the worker and the posted handlers go on by themselves. -/
def own : ServingEvent → Bool
  | .advance _ | .wake | .operate _ | .deliver _ => true
  | .arrive _ | .stop => false

/-- A request costs at most nine steps. -/
def cost : ServingEvent → Nat
  | .arrive _ => 9
  | _ => 0

end ServingEvent

namespace Serving

variable {router : Router} {s s' start : Serving} {event : ServingEvent} {i : Nat}
  {x : Exchange} {task : Task}

/-- The own steps that are left at most. -/
def load (s : Serving) : Nat :=
  (s.exchanges.map fun x => x.progress.load).sum + workerLoad s.executor.worker +
    (s.executor.queue.map queueLoad).sum + (s.posted.map postedLoad).sum

/-- A suspended request waits for something that is on its way, and each answer was given once. -/
structure Awaiting (s : Serving) : Prop where
  tracked : Tracked s
  awaits : ∀ i x, s.exchanges[i]? = some x → x.progress = .suspended → i ∈ s.waiting
  counted : ∀ i x task, s.exchanges[i]? = some x → Remaining s i x task → task.Counted
  once : s.answered.Nodup
  answered : ∀ i, i ∈ s.answered ↔ ∃ x response, s.exchanges[i]? = some x ∧
    x.progress = .answered response

/-- What is left of a request after one step has no more submissions than it should. -/
theorem Awaiting.effect_counted (hs : Awaiting s) (h : Effect router s event i x task) :
    task.Counted := by
  cases h with
  | same hx hremaining => exact hs.counted _ _ _ hx hremaining
  | arrived => exact Router.handleAsync_counted
  | rejected error _ hx hp => exact (hs.counted _ _ _ hx (.running hp) _).2
  | executed _ _ _ hx hremaining => exact (hs.counted _ _ _ hx hremaining _).2

/-- Whoever is suspended after a step that changes one exchange waits for something. -/
theorem awaits_of_modify {j : Nat} {f : Exchange → Exchange} (hs : Awaiting s) {t : Serving}
    (ht : t.exchanges = s.exchanges)
    (hothers : ∀ i ∈ s.waiting, i ≠ j → i ∈ (t.modifyExchange j f).waiting)
    (hself : ∀ x, s.exchanges[j]? = some x → (f x).progress = .suspended →
      j ∈ (t.modifyExchange j f).waiting) :
    ∀ i x, (t.modifyExchange j f).exchanges[i]? = some x → x.progress = .suspended →
      i ∈ (t.modifyExchange j f).waiting := by
  intro i x hx hsuspended
  obtain ⟨y, hy, rfl⟩ := getElem?_modifyExchange hx
  rw [ht] at hy
  by_cases hj : j = i
  · subst hj
    rw [if_pos rfl] at hsuspended
    exact hself y hy hsuspended
  · rw [if_neg hj] at hsuspended
    exact hothers i (hs.awaits i y hy hsuspended) fun h => hj h.symm

theorem Awaiting.awaits_step (hs : Awaiting s) (hstep : Step router s event s') :
    ∀ i x, s'.exchanges[i]? = some x → x.progress = .suspended → i ∈ s'.waiting := by
  cases hstep with
  | arrive request =>
      intro i x hx hsuspended
      rw [List.getElem?_append] at hx
      split at hx
      · exact hs.awaits i x hx hsuspended
      · rw [List.getElem?_singleton] at hx
        split at hx
        · obtain rfl := Option.some.inj hx
          cases hsuspended
        · cases hx
  | answer hx hp =>
      exact awaits_of_modify hs rfl (fun i hi _ => hi) fun _ _ h => by cases h
  | accept job executor hx hp _ hpending _ =>
      have hmore : ∀ i ∈ s.waiting, i ∈ waiting ({ s with executor }.modifyExchange
          job.operation.request (Exchange.to .suspended)) := by
        intro i hi
        simp only [waiting, modifyExchange, hpending, List.map_append, List.mem_append] at hi ⊢
        exact hi.imp_left Or.inl
      refine awaits_of_modify (t := { s with executor }) hs rfl (fun i hi _ => hmore i hi) ?_
      intro y _ _
      simp [waiting, modifyExchange, hpending]
  | reject job error executor hx hp _ hpending _ =>
      refine awaits_of_modify (t := { s with executor }.post _) hs rfl (fun i hi _ => ?_) ?_
      · simp only [waiting, modifyExchange, post, hpending, List.map_append, List.mem_append]
          at hi ⊢
        exact hi.imp_right Or.inl
      · intro y _ _
        simp [waiting, modifyExchange, post]
  | worker executor _ hpending _ =>
      intro i x hx hsuspended
      have := hs.awaits i x hx hsuspended
      simpa only [waiting, hpending] using this
  | operate job executor _ hpending _ =>
      have hmoved : ∀ result f, ∀ i ∈ s.waiting, i ∈ waiting
          (({ s with executor }.post ⟨job, result⟩).modifyExchange job.operation.request f) := by
        intro result f i hi
        simp only [waiting, post, modifyExchange, hpending, List.map_append, List.map_cons,
          List.map_nil, List.mem_append, List.mem_cons] at hi ⊢
        tauto
      refine awaits_of_modify (t := { s with executor }.post _) hs rfl
        (fun i hi _ => hmoved _ _ i hi) ?_
      intro y _ _
      simp [waiting, modifyExchange, post]
  | deliver k c hc =>
      refine awaits_of_modify (t := { s with posted := s.posted.eraseIdx k }) hs rfl ?_
        fun _ _ h => by cases h
      intro i hi hne
      simp only [waiting, modifyExchange, List.mem_append, List.mem_map] at hi ⊢
      refine hi.imp_right ?_
      rintro ⟨c', hc', rfl⟩
      refine ⟨c', ?_, rfl⟩
      -- the completion that was delivered is another one
      obtain ⟨hk, rfl⟩ := List.getElem?_eq_some_iff.mp hc
      have hperm := (List.getElem_cons_eraseIdx_perm hk).mem_iff.mpr hc'
      rcases List.mem_cons.mp hperm with rfl | hmem
      · exact absurd rfl hne
      · exact hmem

/-- Only `co_return` answers, and only a request that is running. -/
theorem Awaiting.answered_step (hs : Awaiting s) (hstep : Step router s event s') :
    s'.answered.Nodup ∧ ∀ i, i ∈ s'.answered ↔ ∃ x response, s'.exchanges[i]? = some x ∧
      x.progress = .answered response := by
  -- a step that leaves the answered ones and makes no new ones
  have hkept : ∀ {t : Serving} {j : Nat} {f : Exchange → Exchange}, t.answered = s.answered →
      t.exchanges = s.exchanges →
      (∀ x, s.exchanges[j]? = some x → ∀ response, (f x).progress = .answered response ↔
        x.progress = .answered response) →
      (t.modifyExchange j f).answered.Nodup ∧ ∀ i, i ∈ (t.modifyExchange j f).answered ↔
        ∃ x response, (t.modifyExchange j f).exchanges[i]? = some x ∧
          x.progress = .answered response := by
    intro t j f hanswered hexchanges hf
    refine ⟨hanswered ▸ hs.once, fun i => ?_⟩
    show i ∈ t.answered ↔ _
    rw [hanswered, hs.answered i]
    simp only [modifyExchange, hexchanges, List.getElem?_modify]
    cases hx : s.exchanges[i]? with
    | none => simp
    | some x =>
        by_cases hj : j = i
        · subst hj
          simp [hf x hx]
        · simp [hj]
  cases hstep with
  | arrive request =>
      refine ⟨hs.once, fun i => (hs.answered i).trans ?_⟩
      constructor
      · rintro ⟨x, response, hx, hp⟩
        exact ⟨x, response, List.getElem?_append_left (List.getElem?_eq_some_iff.mp hx).1 ▸ hx, hp⟩
      · rintro ⟨x, response, hx, hp⟩
        rw [List.getElem?_append] at hx
        split at hx
        · exact ⟨x, response, hx, hp⟩
        · rw [List.getElem?_singleton] at hx
          split at hx
          · obtain rfl := Option.some.inj hx
            cases hp
          · cases hx
  | @answer j x response hx hp =>
      have hnew : j ∉ s.answered := by
        intro hj
        obtain ⟨y, other, hy, hother⟩ := (hs.answered j).mp hj
        obtain rfl := Option.some.inj (hx.symm.trans hy)
        cases hp.symm.trans hother
      refine ⟨List.nodup_append.mpr ⟨hs.once, List.nodup_singleton _, ?_⟩, fun i => ?_⟩
      · intro a ha b hb hab
        obtain rfl := List.mem_singleton.mp hb
        exact hnew (hab ▸ ha)
      · simp only [Serving.answer, modifyExchange, List.mem_append, List.mem_singleton,
          List.getElem?_modify, hs.answered i]
        by_cases hj : i = j
        · subst hj
          simp [hx, Exchange.to]
        · simp [hj, Ne.symm hj]
  | accept job executor hx hp =>
      refine hkept (t := { s with executor }) rfl rfl fun y hy other => ?_
      obtain rfl := Option.some.inj (hx.symm.trans hy)
      simp [Exchange.to, hp]
  | reject job error executor hx hp =>
      refine hkept (t := { s with executor }.post _) rfl rfl fun y hy other => ?_
      obtain rfl := Option.some.inj (hx.symm.trans hy)
      simp [Exchange.to, hp]
  | worker => exact ⟨hs.once, hs.answered⟩
  | operate job executor =>
      exact hkept (t := { s with executor }.post _) (f := Exchange.ran _ _) rfl rfl
        fun _ _ _ => Iff.rfl
  | deliver k c hc =>
      refine hkept (t := { s with posted := s.posted.eraseIdx k }) rfl rfl fun y hy other => ?_
      have hsuspended := hs.tracked.suspended_of hy (waiting_posted (List.mem_of_getElem? hc))
      simp [Exchange.to, hsuspended]

theorem Awaiting.next (hs : Awaiting s) (h : s.next router event = some s') : Awaiting s' where
  tracked := hs.tracked.step (step_of_next h)
  awaits := hs.awaits_step (step_of_next h)
  counted _ _ _ hx hremaining := hs.effect_counted (step_effect hs.tracked h hx hremaining)
  once := (hs.answered_step (step_of_next h)).1
  answered := (hs.answered_step (step_of_next h)).2

theorem awaiting_init (h : (runs router).init s) : Awaiting s := by
  obtain ⟨m, queueCapacity, -, -, rfl⟩ := h
  exact ⟨tracked_start, by simp, by simp, List.nodup_nil, by simp⟩

/-! ## Each step brings the requests nearer to their answers -/

/-- A submission is queued, or its rejection is posted. -/
theorem load_submit {ticket : Ticket} (hx : s.exchanges[ticket.request]? = some x)
    (hp : x.progress = .running (.submit ticket.operation ticket.resume))
    (hcounted : (Task.submit ticket.operation ticket.resume).Counted) :
    (s.submit ticket).load < s.load := by
  have hsuspend := sum_map_modify (fun x => x.progress.load) (Exchange.to .suspended) hx
  have hrunning : x.progress.load = 4 * ticket.operation.rounds + 1 := by rw [hp]; rfl
  have hsuspended : (x.to .suspended).progress.load = 0 := rfl
  simp only [hrunning, hsuspended] at hsuspend
  let job : Job Ticket := ⟨s.executor.submissions, .handler, ticket⟩
  by_cases hadmits : s.executor.Admits
  · have heq : s.executor.asyncSubmit ticket = { s.executor with
        submissions := s.executor.submissions + 1
        queue := s.executor.queue ++ [job]
        accepted := s.executor.accepted ++ [job] } := enqueue_of_admits hadmits
    have hnone : newlyCompleted s.executor (s.executor.asyncSubmit ticket) = [] := by
      simp [newlyCompleted, heq]
    have hjob : queueLoad job = 4 * ticket.operation.rounds := rfl
    simp only [load, Serving.submit, withExecutor, modifyExchange, hnone, List.append_nil]
    simp only [heq, List.map_append, List.map_cons, List.map_nil, List.sum_append,
      List.sum_singleton, hjob]
    omega
  · obtain ⟨error, -, heq⟩ : ∃ error, _ ∧ s.executor.asyncSubmit ticket = { s.executor with
        submissions := s.executor.submissions + 1
        rejected := s.executor.rejected ++ [⟨job, .error error⟩] } :=
      enqueue_of_not_admits hadmits
    have hone : newlyCompleted s.executor (s.executor.asyncSubmit ticket) =
        [⟨job, .error error⟩] := by simp [newlyCompleted, heq]
    have hfewer : (ticket.resume (.error error)).rounds < ticket.operation.rounds :=
      (hcounted (.error error)).1
    have hposted : postedLoad ⟨job, .error error⟩ =
        4 * (ticket.resume (.error error)).rounds + 2 := rfl
    simp only [load, Serving.submit, withExecutor, modifyExchange, hone]
    simp only [heq, List.map_append, List.map_cons, List.map_nil, List.sum_append,
      List.sum_singleton, hposted]
    omega

/-- **An own step leaves less to come.** -/
theorem load_lt (hs : Awaiting s) (h : s.next router event = some s') (hown : event.own = true) :
    s'.load < s.load := by
  cases event with
  | arrive | stop => cases hown
  | advance i =>
      simp only [Serving.next] at h
      cases hx : s.exchanges[i]? with
      | none => simp [hx] at h
      | some x =>
          simp only [hx, Option.map_some] at h
          split at h
          · next response hp =>
              obtain rfl := Option.some.inj h
              have hp := Option.some.inj hp
              have hanswer := sum_map_modify (fun x => x.progress.load)
                (Exchange.to (.answered response)) hx
              have hrunning : x.progress.load = 1 := by rw [hp]; rfl
              have hanswered : (x.to (.answered response)).progress.load = 0 := rfl
              simp only [hrunning, hanswered] at hanswer
              simp only [load, Serving.answer, modifyExchange]
              omega
          -- a round is left for the resumption, and it costs less than the one before
          · next operation resume hp =>
              obtain rfl := Option.some.inj h
              have hp := Option.some.inj hp
              let ticket : Ticket := { request := i, operation, resume }
              have hsubmit : (s.submit ticket).load < s.load :=
                load_submit hx hp (hs.counted i x _ hx (.running hp))
              exact hsubmit
          · cases h
  | wake =>
      obtain ⟨executor, hwake, rfl⟩ := Option.map_eq_some_iff.mp h
      obtain ⟨hworker, ⟨-, -, rfl⟩ | ⟨job, queue, hqueue, rfl⟩⟩ := wake_eq_some hwake
      · simp [load, withExecutor, newlyCompleted, hworker, workerLoad]
      · have hjob : queueLoad job = workerLoad (.running job) := rfl
        simp only [load, withExecutor, newlyCompleted, hworker, hqueue, List.map_cons,
          List.sum_cons, hjob, List.drop_length, List.append_nil]
        simp only [workerLoad]
        omega
  | operate environment =>
      simp only [Serving.next] at h
      split at h
      · next job hworker =>
          obtain ⟨executor, hoperate, rfl⟩ := Option.map_eq_some_iff.mp h
          obtain ⟨job', hworker', heq⟩ := operate_eq_some hoperate
          obtain rfl : job = job' := by simpa [hworker] using hworker'
          -- the job moves from the worker to the posted completions
          let result := (ticketWorkload.invoke job.operation environment s.executor.service).1.completion
          have hone : newlyCompleted s.executor executor = [⟨job, result⟩] := by
            simp [newlyCompleted, heq, result]
          have hjob : job ∈ s.executor.pending := by simp [pending, hworker, Worker.job]
          obtain ⟨x, hx, hp⟩ := Option.map_eq_some_iff.mp
            (hs.tracked.suspended _ (waiting_pending hjob))
          have hfewer := (hs.counted _ x _ hx (.pending hp hjob rfl) result).1
          have hsame := sum_map_modify (fun x => x.progress.load) (Exchange.ran
            s.executor.service.db.tables executor.service.db.tables) hx
          have hposted : postedLoad ⟨job, result⟩ =
              4 * (job.operation.resume result).rounds + 2 := rfl
          have hran : (x.ran s.executor.service.db.tables executor.service.db.tables).progress =
              x.progress := rfl
          simp only [hran] at hsame
          simp only [load, operated, withExecutor, modifyExchange, hone, List.map_append,
            List.map_cons, List.map_nil, List.sum_append, List.sum_singleton, hposted]
          simp only [heq, hworker, workerLoad] at hsame ⊢
          omega
      · cases h
  | deliver k =>
      obtain ⟨c, hc, rfl⟩ := Option.map_eq_some_iff.mp h
      have hposted := sum_map_eraseIdx postedLoad hc
      obtain ⟨x, hx, hp⟩ := Option.map_eq_some_iff.mp
        (hs.tracked.suspended _ (waiting_posted (List.mem_of_getElem? hc)))
      have hresume := sum_map_modify (fun x => x.progress.load)
        (Exchange.to (.running (c.job.operation.resume c.result))) hx
      have hrunning : (x.to (.running (c.job.operation.resume c.result))).progress.load =
          4 * (c.job.operation.resume c.result).rounds + 1 := rfl
      simp only [hrunning, hp] at hresume
      simp only [load, resume, modifyExchange, postedLoad] at hposted hresume ⊢
      omega

/-- What comes from outside brings a request of at most nine steps. -/
theorem load_le (h : s.next router event = some s') (hown : event.own = false) :
    s'.load ≤ s.load + event.cost := by
  cases event with
  | arrive request =>
      obtain rfl := Option.some.inj h
      have hrounds := (router.handleAsync request).rounds_le
      simp only [load, ServingEvent.cost, List.map_append, List.map_cons, List.map_nil,
        List.sum_append, List.sum_singleton, Progress.load]
      omega
  | stop =>
      obtain rfl := Option.some.inj h
      exact Nat.le_refl _
  | advance | wake | operate | deliver => cases hown

def Affords (s : Serving) (n : Nat) : Prop := Awaiting s ∧ s.load = n

theorem budget : (runs router).Budget ServingEvent.own ServingEvent.cost Affords where
  spends h hstep hown := by
    obtain ⟨hs, rfl⟩ := h
    exact ⟨_, load_lt hs hstep hown, hs.next hstep, rfl⟩
  earns h hstep hown := by
    obtain ⟨hs, rfl⟩ := h
    exact ⟨_, load_le hstep hown, hs.next hstep, rfl⟩

theorem affords_init (h : (runs router).init s) : s.Affords 1 := by
  refine ⟨awaiting_init h, ?_⟩
  obtain ⟨m, queueCapacity, -, -, rfl⟩ := h
  rfl

/-! ## At rest -/

/-- Each request has one response, and no other was sent. -/
structure Answered (s : Serving) : Prop where
  each : ∀ x ∈ s.exchanges, ∃ response, x.progress = .answered response
  once : s.answered.Perm (List.range s.exchanges.length)

/-- Somebody can go on while there is a job. -/
theorem pending_enabled (hinv : Inv ticketWorkload s.executor) (h : s.executor.pending ≠ []) :
    ∃ event t, ServingEvent.own event = true ∧ s.next router event = some t := by
  cases hworker : s.executor.worker with
  | waiting =>
      cases hqueue : s.executor.queue with
      | nil => simp [pending, hworker, Worker.job, hqueue] at h
      | cons job queue =>
          have hwake : s.executor.wake = some { s.executor with
              queue, worker := .running job, executed := s.executor.executed ++ [job] } := by
            simp only [wake, hworker, hqueue]
          exact ⟨.wake, s.withExecutor _, rfl, by rw [Serving.next, hwake, Option.map_some]⟩
  | running job =>
      obtain ⟨executor, hoperate⟩ :
          ∃ executor, s.executor.operate ticketWorkload.invoke [] = some executor := by
        simp only [operate, hworker]
        exact ⟨_, rfl⟩
      refine ⟨.operate [], s.operated job executor, rfl, ?_⟩
      simp only [Serving.next, hworker, hoperate, Option.map_some]
  | exited =>
      have hqueue := (hinv.exits hworker).2
      simp [pending, hworker, Worker.job, hqueue] at h

theorem answered_of_atRest (h : (runs router).Reachable s) (hs : Awaiting s)
    (hrest : (runs router).AtRest ServingEvent.own s) : s.Answered := by
  have hinv := inv_of_reachable (executor_reachable h)
  have hstuck : ∀ event t, ServingEvent.own event = true → s.next router event ≠ some t :=
    fun event t hown hstep => hrest event t hown hstep
  have hpending : s.executor.pending = [] := by
    by_contra hne
    obtain ⟨event, t, hown, hstep⟩ := pending_enabled hinv hne
    exact hstuck event t hown hstep
  have hposted : s.posted = [] := by
    cases hposted : s.posted with
    | nil => rfl
    | cons c posted =>
        exact absurd (by simp [Serving.next, hposted]) (hstuck (.deliver 0) (s.resume 0 c) rfl)
  have heach : ∀ (i : Nat) (x : Exchange), s.exchanges[i]? = some x →
      ∃ response, x.progress = .answered response := by
    intro i x hx
    cases hp : x.progress with
    | answered response => exact ⟨response, rfl⟩
    | suspended =>
        have := hs.awaits i x hx hp
        simp [waiting, hpending, hposted] at this
    | running task =>
        cases task with
        | done response =>
            exact absurd (by simp [Serving.next, hx, hp])
              (hstuck (.advance i) (s.answer i response) rfl)
        | submit operation resume =>
            exact absurd (by simp [Serving.next, hx, hp])
              (hstuck (.advance i) (s.submit { request := i, operation, resume }) rfl)
  constructor
  · intro x hx
    obtain ⟨i, hi⟩ := List.getElem?_of_mem hx
    exact heach i x hi
  · refine (List.perm_ext_iff_of_nodup hs.once List.nodup_range).mpr fun i => ?_
    rw [hs.answered i, List.mem_range]
    constructor
    · rintro ⟨x, response, hx, -⟩
      exact (List.getElem?_eq_some_iff.mp hx).1
    · intro hi
      obtain ⟨response, hresponse⟩ := heach i _ (List.getElem?_eq_getElem hi)
      exact ⟨_, response, List.getElem?_eq_getElem hi, hresponse⟩

/-- An own step brings no request along. -/
theorem next_length (h : s.next router event = some s') (hown : event.own = true) :
    s'.exchanges.length = s.exchanges.length := by
  cases step_of_next h with
  | arrive => cases hown
  | answer => simp [Serving.answer, modifyExchange]
  | accept | reject | operate => simp [modifyExchange, post]
  | worker => rfl
  | deliver => simp [resume, modifyExchange]

theorem run_length {events : List ServingEvent} (h : (runs router).Run s events s')
    (hown : ∀ event ∈ events, event.own = true) : s'.exchanges.length = s.exchanges.length := by
  induction h with
  | here => rfl
  | @step events t u event _ hstep ih =>
      rw [next_length hstep (hown event (by simp))]
      exact ih fun event hevent => hown event (by simp [hevent])

/-- **Every request is answered, once.** A run takes at most nine steps for each request that came
in, and one for the worker's exit; where no step is left, each request has its response; and from
every state the server alone gets there. -/
theorem every_request_is_answered {events : List ServingEvent} (hinit : (runs router).init start)
    (hrun : (runs router).Run start events s) :
    events.countP ServingEvent.own ≤ 1 + (events.map ServingEvent.cost).sum ∧
    ((runs router).AtRest ServingEvent.own s → s.Answered) ∧
    ∃ more t, (runs router).Run s more t ∧ (∀ event ∈ more, event.own = true) ∧
      t.exchanges.length = s.exchanges.length ∧ t.Answered := by
  have hreach : (runs router).Reachable s := hrun.reachable (.init hinit)
  obtain ⟨n, hn, -⟩ := budget.balance (affords_init hinit) hrun
  refine ⟨budget.own_le (affords_init hinit) hrun, answered_of_atRest hreach hn.1, ?_⟩
  obtain ⟨more, t, hmore, hown, hrest⟩ := budget.exists_atRest hn
  obtain ⟨m, hm, -⟩ := budget.balance hn hmore
  exact ⟨more, t, hmore, hown, run_length hmore hown,
    answered_of_atRest (hmore.reachable hreach) hm.1 hrest⟩

/-! ## A request before a stop, and one after it -/

def listingRouter : Router := { glaze := Glaze.plain [] [] }

def stoppedListing : List ServingEvent :=
  [.arrive { method := .get, target := "/v1/products" }, .advance 0, .wake, .stop,
    .arrive { method := .get, target := "/v1/recipes" }, .advance 1, .operate [], .deliver 0,
    .deliver 0, .advance 0, .advance 1, .wake]

def stoppedListingRun : Option Serving := stoppedListing.foldlM (next listingRouter) (opened 1)

theorem stoppedListingRun_isSome : stoppedListingRun.isSome = true := by decide +kernel

/-- Both are answered, the second with an error. -/
theorem every_request_is_answered_stopped :
    (stoppedListing.countP ServingEvent.own ≤ 1 + (stoppedListing.map ServingEvent.cost).sum ∧
      ((runs listingRouter).AtRest ServingEvent.own
          (stoppedListingRun.get stoppedListingRun_isSome) →
        (stoppedListingRun.get stoppedListingRun_isSome).Answered) ∧
      ∃ more t, (runs listingRouter).Run (stoppedListingRun.get stoppedListingRun_isSome) more t ∧
        (∀ event ∈ more, event.own = true) ∧
        t.exchanges.length =
          (stoppedListingRun.get stoppedListingRun_isSome).exchanges.length ∧ t.Answered) ∧
    ((stoppedListingRun.get stoppedListingRun_isSome).exchanges.map fun x => x.progress.status) =
      [some .ok, some .internalServerError] :=
  ⟨every_request_is_answered (opened_init Nat.one_pos)
      (System.Run.of_foldlM (fun _ _ _ h => h) (Option.some_get stoppedListingRun_isSome).symm),
    by decide +kernel⟩

end Serving

end RecipesCore.Net
