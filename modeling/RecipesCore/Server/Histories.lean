import RecipesCore.App.Coherence
import RecipesCore.Server.Answering
import RecipesCore.Server.Linearizability

/-!
# One kitchen behind all requests

What the coroutines are told by their submissions, in the order in which it is decided, is one
history of the kitchen, whatever the interleaving: there is no queue, no worker and no database in
it. A submission that the executor refuses is told so, and the kitchen knows nothing of it. Each
response is what `HandleAsync` makes of the answers to its own request.
-/

namespace RecipesCore.Net

open RecipesCore.Api
open RecipesCore.App RecipesCore.App.DatabaseExecutor
open RecipesCore.Db
open RecipesCore.Logic
open RecipesCore.Types

/-! ## What a coroutine makes of its answers -/

/-- The coroutine is told the answers, and what is left of it is `task'`. -/
inductive Task.Hears : Task → List Answered → Task → Prop where
  | nothing {task : Task} : Hears task [] task
  | told {operation : ServiceOperation} {resume : Expected operation.Result → Task}
      {result : Expected operation.Result} {answers : List Answered} {task' : Task} :
      Hears (resume result) answers task' →
      Hears (.submit operation resume) (⟨operation, result⟩ :: answers) task'

/-- Every operation it may submit satisfies `P`. -/
def Task.Only (P : ServiceOperation → Prop) : Task → Prop
  | .done _ => True
  | .submit operation resume => P operation ∧ ∀ result, (resume result).Only P

section

variable {task task' : Task} {answers : List Answered} {operation : ServiceOperation}
  {resume : Expected operation.Result → Task}

theorem Task.Hears.snoc (h : task.Hears answers (.submit operation resume))
    (result : Expected operation.Result) :
    task.Hears (answers ++ [⟨operation, result⟩]) (resume result) := by
  generalize htask' : Task.submit operation resume = task' at h
  induction h with
  | nothing =>
      subst htask'
      exact .told .nothing
  | told _ ih => exact .told (ih htask')

theorem Task.Hears.only {P : ServiceOperation → Prop} (h : task.Hears answers task')
    (honly : task.Only P) : ∀ answered ∈ answers, P answered.1 := by
  induction h with
  | nothing => simp
  | told _ ih => exact List.forall_mem_cons.mpr ⟨honly.1, ih (honly.2 _)⟩

/-- A coroutine with one submission left has been told one answer at its end. -/
theorem Task.Hears.once {respond : Expected operation.Result → Response} {response : Response}
    (h : (Task.submit operation fun result => .done (respond result)).Hears answers
      (.done response)) :
    ∃ result, answers = [⟨operation, result⟩] ∧ response = respond result := by
  cases h with
  | told h =>
      cases h with
      | nothing => exact ⟨_, rfl, rfl⟩

end

/-! ## What a request asks for -/

namespace Router

variable (router : Router) (request : Request)

/-- The resource is asked for the operation, by the method and the body of the request. -/
def Asks : Resource → ServiceOperation → Prop
  | .productCollection, .getProducts => request.method = .get
  | .productCollection, .createProduct product =>
      request.method = .post ∧ router.parseProduct request.body = .ok product
  | .productItem productId, .getProduct id =>
      id = productId ∧ (request.method = .get ∨ request.method = .put)
  | .productItem productId, .updateProduct id product =>
      id = productId ∧ request.method = .put ∧ router.parseProduct request.body = .ok product
  | .productItem productId, .deleteProduct id => id = productId ∧ request.method = .delete
  | .recipeCollection, .getRecipes => request.method = .get
  | .recipeCollection, .createRecipe recipe =>
      request.method = .post ∧ router.parseRecipe request.body = .ok recipe
  | .cookableRecipes, .getCookableRecipes => request.method = .get
  | .recipeItem recipeId, .getRecipe id =>
      id = recipeId ∧ (request.method = .get ∨ request.method = .put)
  | .recipeItem recipeId, .updateRecipe id recipe =>
      id = recipeId ∧ request.method = .put ∧ router.parseRecipe request.body = .ok recipe
  | .recipeItem recipeId, .deleteRecipe id => id = recipeId ∧ request.method = .delete
  | _, _ => False

/-- The request asks for the operation. -/
def AsksFor (operation : ServiceOperation) : Prop :=
  ∃ resource : Resource, resource.Named request.target ∧ router.Asks request resource operation

variable {router request}

theorem orAppError_only {α : Type} {P : ServiceOperation → Prop} {k : α → Task}
    (h : ∀ a, (k a).Only P) (result : Expected α) :
    (router.orAppError request k result).Only P := by
  cases result with
  | error error => trivial
  | ok a => exact h a

theorem submit_only {P : ServiceOperation → Prop} {operation : ServiceOperation}
    {k : operation.Result → Task} (hop : P operation) (h : ∀ a, (k a).Only P) :
    (Task.submit operation (router.orAppError request k)).Only P :=
  ⟨hop, orAppError_only h⟩

theorem found_only {α : Type} {P : ServiceOperation → Prop} {missing what : String}
    {serialize : α → Except String String} (object : Option α) :
    (router.found request missing what serialize object).Only P := by
  cases object with
  | none => trivial
  | some a => trivial

theorem withBody_only {α : Type} {P : ServiceOperation → Prop}
    {parse : String → Except (Status × String) α} {k : α → Task}
    (h : ∀ a, parse request.body = .ok a → (k a).Only P) :
    (router.withBody request parse k).Only P := by
  unfold withBody
  split
  · split
    · trivial
    · next a ha => exact h a ha
  · trivial

theorem handleRecipes_only {P : ServiceOperation → Prop} {cookable : Bool}
    (h : P (if cookable then .getCookableRecipes else .getRecipes)) :
    (router.handleRecipes request cookable).Only P := by
  unfold handleRecipes
  cases cookable with
  | true =>
      split
      · exact submit_only h fun _ => trivial
      · trivial
  | false =>
      split
      · exact submit_only h fun _ => trivial
      · trivial

theorem handler_only {resource : Resource} (hnamed : resource.Named request.target)
    (hsupports : resource.supports request.method = true) :
    (router.handler request resource request.method).Only (router.AsksFor request) := by
  have hasks : ∀ {operation}, router.Asks request resource operation →
      router.AsksFor request operation := fun h => ⟨resource, hnamed, h⟩
  cases hmethod : request.method with
  | get =>
      cases resource with
      | health => trivial
      | productCollection => exact submit_only (hasks hmethod) fun _ => trivial
      | productItem productId => exact submit_only (hasks ⟨rfl, Or.inl hmethod⟩) found_only
      | recipeCollection => exact handleRecipes_only (hasks hmethod)
      | cookableRecipes => exact handleRecipes_only (hasks hmethod)
      | recipeItem recipeId => exact submit_only (hasks ⟨rfl, Or.inl hmethod⟩) found_only
  | post =>
      rw [hmethod] at hsupports
      cases resource with
      | productCollection =>
          exact withBody_only fun _ hbody => submit_only (hasks ⟨hmethod, hbody⟩) fun _ => trivial
      | recipeCollection =>
          exact withBody_only fun _ hbody => submit_only (hasks ⟨hmethod, hbody⟩) fun _ => trivial
      | _ => cases hsupports
  | put =>
      rw [hmethod] at hsupports
      cases resource with
      | productItem productId =>
          exact withBody_only fun _ hbody => submit_only (hasks ⟨rfl, hmethod, hbody⟩) fun _ =>
            submit_only (hasks ⟨rfl, Or.inr hmethod⟩) found_only
      | recipeItem recipeId =>
          exact withBody_only fun _ hbody => submit_only (hasks ⟨rfl, hmethod, hbody⟩) fun _ =>
            submit_only (hasks ⟨rfl, Or.inr hmethod⟩) found_only
      | _ => cases hsupports
  | delete =>
      rw [hmethod] at hsupports
      cases resource with
      | productItem productId => exact submit_only (hasks ⟨rfl, hmethod⟩) fun _ => trivial
      | recipeItem recipeId => exact submit_only (hasks ⟨rfl, hmethod⟩) fun _ => trivial
      | _ => cases hsupports
  | other =>
      rw [hmethod] at hsupports
      cases resource <;> cases hsupports

/-- Without an executor nothing is submitted. -/
theorem handleAsync_done (h : router.databaseExecutor = false) :
    ∃ response, router.handleAsync request = .done response := by
  unfold handleAsync
  simp only [h, handleProducts, handleRecipeItem, Bool.false_eq_true, if_false]
  split
  · exact ⟨_, rfl⟩
  · split
    · exact ⟨_, rfl⟩
    · split
      · exact ⟨_, rfl⟩
      · exact ⟨_, rfl⟩

/-- **A coroutine submits what its request asks for, and nothing else.** -/
theorem handleAsync_only : (router.handleAsync request).Only (router.AsksFor request) := by
  cases hexecutor : router.databaseExecutor with
  | false =>
      obtain ⟨response, hdone⟩ : ∃ response, router.handleAsync request = .done response :=
        handleAsync_done hexecutor
      rw [hdone]
      trivial
  | true =>
      by_cases hnamed : ∃ resource : Resource, resource.Named request.target
      · obtain ⟨resource, hnamed⟩ := hnamed
        rw [handleAsync_named hexecutor hnamed]
        split
        · next hsupports => exact handler_only hnamed hsupports
        · trivial
      · rw [handleAsync_unnamed fun resource h => hnamed ⟨resource, h⟩]
        trivial

end Router

/-! ## Histories -/

/-- A request and what it is told. -/
abbrev Telling := Nat × Answered

/-- The executor does not take the submission. -/
def Refused {operation : ServiceOperation} (result : Expected operation.Result) : Prop :=
  result = .error stoppingError ∨ result = .error queueFullError

/-- The kitchen with the executor before it. -/
def servedRuns : System Kitchen Telling where
  init := kitchenRuns.init
  step k telling k' := kitchenRuns.step k telling.2 k' ∨ Refused telling.2.2 ∧ k' = k

def answersTo (i : Nat) (history : List Telling) : List Answered :=
  (history.filter fun telling => decide (telling.1 = i)).map Prod.snd

section

variable {i j : Nat} {history more : List Telling} {answered : Answered}

theorem answersTo_append :
    answersTo i (history ++ more) = answersTo i history ++ answersTo i more := by
  simp [answersTo]

theorem answersTo_eq_nil (h : ∀ telling ∈ history, telling.1 ≠ i) : answersTo i history = [] := by
  rw [answersTo, List.filter_eq_nil_iff.mpr (by simpa using h), List.map_nil]

theorem answersTo_snoc_self :
    answersTo i (history ++ [(i, answered)]) = answersTo i history ++ [answered] := by
  simp [answersTo]

theorem answersTo_snoc_ne (h : j ≠ i) :
    answersTo i (history ++ [(j, answered)]) = answersTo i history := by
  simp [answersTo, h]

end

namespace Serving

variable {router : Router} {s s' : Serving} {event : ServingEvent} {i j : Nat} {x x' : Exchange}
  {task : Task} {history more : List Telling} {k : Kitchen}

/-- The invariant: `history` is what the requests were told so far.

* What is left of each request is what it makes of its own answers.
* Nobody is told anything before he has come.
* Who had been answered when a request came in is told nothing after it. -/
structure Told (router : Router) (s : Serving) (history : List Telling) : Prop where
  hears : ∀ i x task, s.exchanges[i]? = some x → Remaining s i x task →
    (router.handleAsync x.request).Hears (answersTo i history) task
  arrived : ∀ telling ∈ history, telling.1 < s.exchanges.length
  inOrder : ∀ i x j, s.exchanges[i]? = some x → j ∈ x.earlier →
    j < i ∧ j ∈ s.answered ∧ history.Pairwise fun a b => a.1 = i → b.1 ≠ j

/-- An exchange was there before the step, or it has just come. -/
theorem exchange_of_step (h : Step router s event s') (hx' : s'.exchanges[i]? = some x') :
    (∃ x, s.exchanges[i]? = some x ∧ x'.request = x.request ∧ x'.earlier = x.earlier) ∨
      i = s.exchanges.length ∧ x'.earlier = s.answered := by
  have hmodified : ∀ {j : Nat} {f : Exchange → Exchange},
      s'.exchanges = (s.modifyExchange j f).exchanges →
      (∀ x, (f x).request = x.request ∧ (f x).earlier = x.earlier) →
      ∃ x, s.exchanges[i]? = some x ∧ x'.request = x.request ∧ x'.earlier = x.earlier := by
    intro j f hexchanges hf
    rw [hexchanges] at hx'
    obtain ⟨x, hx, rfl⟩ := getElem?_modifyExchange hx'
    refine ⟨x, hx, ?_⟩
    split
    · exact hf x
    · exact ⟨rfl, rfl⟩
  cases h with
  | arrive request =>
      rw [List.getElem?_append] at hx'
      split at hx'
      · exact Or.inl ⟨x', hx', rfl, rfl⟩
      · next hge =>
          rw [List.getElem?_singleton] at hx'
          split at hx'
          · obtain rfl := Option.some.inj hx'
            exact Or.inr ⟨by omega, rfl⟩
          · cases hx'
  | worker => exact Or.inl ⟨x', hx', rfl, rfl⟩
  | answer | accept | reject | operate | deliver =>
      exact Or.inl (hmodified rfl fun _ => ⟨rfl, rfl⟩)

/-- Who has come stays, and so does who was answered. -/
theorem step_keeps (h : Step router s event s') :
    s.exchanges.length ≤ s'.exchanges.length ∧ ∀ j ∈ s.answered, j ∈ s'.answered := by
  cases h with
  | arrive => exact ⟨by simp, fun _ hj => hj⟩
  | answer => exact ⟨by simp [answer, modifyExchange], fun _ hj => List.mem_append_left _ hj⟩
  | worker => exact ⟨le_rfl, fun _ hj => hj⟩
  | accept | reject | operate => exact ⟨by simp [modifyExchange, post], fun _ hj => hj⟩
  | deliver => exact ⟨by simp [resume, modifyExchange], fun _ hj => hj⟩

/-- Who is told something has a submission left, so he has not been answered. -/
theorem not_answered_of_submit (hs : Awaiting s) (hj : j ∈ s.answered)
    {operation : ServiceOperation} {resume : Expected operation.Result → Task}
    (hx : s.exchanges[j]? = some x) (h : Remaining s j x (.submit operation resume)) : False := by
  obtain ⟨y, response, hy, hp⟩ := (hs.answered j).mp hj
  obtain rfl := Option.some.inj (hx.symm.trans hy)
  generalize htask : Task.submit operation resume = task at h
  cases h with
  | running hp' | pending hp' | posted hp' => cases hp.symm.trans hp'
  | answered => cases htask

/-- What is told in a step goes to requests that wait for it. -/
theorem Told.grow (h : Told router s history) (hs : Awaiting s) (hstep : Step router s event s')
    (more : List Telling)
    (hmore : ∀ telling ∈ more, ∃ x operation resume, s.exchanges[telling.1]? = some x ∧
      Remaining s telling.1 x (.submit operation resume))
    (hhears : ∀ i x' task, s'.exchanges[i]? = some x' → Remaining s' i x' task →
      (router.handleAsync x'.request).Hears (answersTo i (history ++ more)) task) :
    Told router s' (history ++ more) := by
  obtain ⟨hlength, hanswered⟩ := step_keeps hstep
  have harrived : ∀ telling ∈ history ++ more, telling.1 < s.exchanges.length := by
    intro telling htelling
    rcases List.mem_append.mp htelling with hold | hnew
    · exact h.arrived telling hold
    · obtain ⟨x, -, -, hx, -⟩ := hmore telling hnew
      exact (List.getElem?_eq_some_iff.mp hx).1
  refine ⟨hhears, fun telling ht => (harrived telling ht).trans_le hlength, ?_⟩
  intro i x' j hx' hj
  rcases exchange_of_step hstep hx' with ⟨x, hx, -, hearlier⟩ | ⟨rfl, hearlier⟩
  · obtain ⟨hlt, hj, horder⟩ := h.inOrder i x j hx (hearlier ▸ hj)
    have hnew : ∀ b ∈ more, b.1 ≠ j := by
      rintro b hb rfl
      obtain ⟨y, operation, resume, hy, hremaining⟩ := hmore b hb
      exact not_answered_of_submit hs hj hy hremaining
    refine ⟨hlt, hanswered j hj,
      List.pairwise_append.mpr ⟨horder, ?_, fun _ _ b hb _ => hnew b hb⟩⟩
    exact List.pairwise_of_forall_mem_list fun _ _ b hb _ => hnew b hb
  · rw [hearlier] at hj
    obtain ⟨y, -, hy, -⟩ := (hs.answered j).mp hj
    refine ⟨(List.getElem?_eq_some_iff.mp hy).1, hanswered j hj,
      List.pairwise_of_forall_mem_list fun a ha b _ hi => ?_⟩
    exact absurd (harrived a ha) (hi ▸ Nat.lt_irrefl _)

/-- A step in which no submission is refused and no operation is run tells nobody anything. -/
theorem Told.quiet (h : Told router s history) (hs : Awaiting s)
    (hnext : s.next router event = some s')
    (hadmits : ∀ i x operation resume, event = .advance i → s.exchanges[i]? = some x →
      x.progress = .running (.submit operation resume) → s.executor.Admits)
    (hoperate : ∀ environment, event ≠ .operate environment) : Told router s' history := by
  rw [← List.append_nil history]
  refine h.grow hs (step_of_next hnext) [] (by simp) fun i x' task hx' hremaining => ?_
  rw [List.append_nil]
  cases step_effect hs.tracked hnext hx' hremaining with
  | @same y _ hy hold heq =>
      have hrequest : x'.request = y.request := by rw [heq]; rfl
      rw [hrequest]
      exact h.hears i y _ hy hold
  | arrived _ hi heq =>
      rw [heq, answersTo_eq_nil fun telling ht => by rw [hi]; exact (h.arrived telling ht).ne]
      exact .nothing
  | rejected _ hevent hx hp hrefused => exact absurd (hadmits _ _ _ _ hevent hx hp) hrefused
  | executed hevent => exact absurd hevent (hoperate _)

/-- The executor refuses, and posts that. -/
theorem submit_of_not_admits {ticket : Ticket} (h : ¬ s.executor.Admits) :
    ∃ (job : Job Ticket) (error : Error) (executor : Executor), job.operation = ticket ∧
      (error = stoppingError ∨ error = queueFullError) ∧
      executor.pending = s.executor.pending ∧ executor.service = s.executor.service ∧
      s.submit ticket = ({ s with executor }.post ⟨job, .error error⟩).modifyExchange
        job.operation.request (Exchange.to .suspended) := by
  let job : Job Ticket := ⟨s.executor.submissions, .handler, ticket⟩
  obtain ⟨error, herror, heq⟩ : ∃ error, (error = stoppingError ∨ error = queueFullError) ∧
      s.executor.asyncSubmit ticket = { s.executor with
        submissions := s.executor.submissions + 1
        rejected := s.executor.rejected ++ [⟨job, .error error⟩] } := enqueue_of_not_admits h
  have hone : newlyCompleted s.executor (s.executor.asyncSubmit ticket) =
      [⟨job, .error error⟩] := by simp [newlyCompleted, heq]
  refine ⟨job, error, s.executor.asyncSubmit ticket, rfl, herror, by simp [heq, pending],
    by simp [heq], ?_⟩
  simp only [submit, withExecutor, hone, post, job]

/-- What was posted for a request that waited for it is all that is left of it. -/
theorem Told.post (h : Told router s history) (hs : Awaiting s)
    (hnext : s.next router event = some s') {operation : ServiceOperation}
    {resume : Expected operation.Result → Task} {result : Expected operation.Result}
    (hx : s.exchanges[j]? = some x) (hremaining : Remaining s j x (.submit operation resume))
    (hself : ∀ x' task, s'.exchanges[j]? = some x' → Remaining s' j x' task →
      x'.request = x.request ∧ task = resume result)
    (hothers : ∀ i x' task, i ≠ j → Effect router s event i x' task →
      ∃ x, s.exchanges[i]? = some x ∧ x'.request = x.request ∧ Remaining s i x task) :
    Told router s' (history ++ [(j, ⟨operation, result⟩)]) := by
  refine h.grow hs (step_of_next hnext) _ ?_ fun i x' task hx' hleft => ?_
  · intro telling htelling
    obtain rfl := List.mem_singleton.mp htelling
    exact ⟨x, operation, resume, hx, hremaining⟩
  · by_cases hi : i = j
    · subst hi
      obtain ⟨hrequest, rfl⟩ := hself x' task hx' hleft
      rw [answersTo_snoc_self, hrequest]
      exact (h.hears i x _ hx hremaining).snoc result
    · obtain ⟨y, hy, hrequest, hold⟩ :=
        hothers i x' task hi (step_effect hs.tracked hnext hx' hleft)
      rw [answersTo_snoc_ne (Ne.symm hi), hrequest]
      exact h.hears i y task hy hold

/-- A submission that is refused. -/
theorem Told.refuse (h : Told router s history) (hs : Awaiting s)
    (hnext : s.next router (.advance i) = some s') {operation : ServiceOperation}
    {resume : Expected operation.Result → Task} (hx : s.exchanges[i]? = some x)
    (hp : x.progress = .running (.submit operation resume)) (hrefused : ¬ s.executor.Admits) :
    ∃ result : Expected operation.Result, Refused result ∧
      s'.executor.service = s.executor.service ∧
      Told router s' (history ++ [(i, ⟨operation, result⟩)]) := by
  let ticket : Ticket := { request := i, operation, resume }
  obtain ⟨⟨submission, completes, _⟩, error, executor, rfl, herror, hpending, hservice, hsubmit⟩ :
      ∃ (job : Job Ticket) (error : Error) (executor : Executor), job.operation = ticket ∧ _ :=
    submit_of_not_admits hrefused
  have hs' : s' = s.submit ticket := by
    simp only [Serving.next, hx, Option.map_some, hp] at hnext
    exact (Option.some.inj hnext).symm
  rw [hsubmit] at hs'
  subst hs'
  refine ⟨.error error, herror.imp (congrArg _) (congrArg _), hservice,
    h.post hs hnext hx (.running hp) (fun x' task hx' hleft => ?_) fun j x' task hj heffect => ?_⟩
  · obtain ⟨y, hy, rfl⟩ := getElem?_modifyExchange hx'
    obtain rfl := Option.some.inj (hx.symm.trans hy)
    rw [if_pos rfl] at hleft ⊢
    refine ⟨rfl, ?_⟩
    obtain ⟨job, hjob, hnew, -⟩ | ⟨c, hc, hnew, -, rfl⟩ :=
      Remaining.of_submit hs.tracked hx hp hleft
    · exact absurd (hpending ▸ hjob : job ∈ s.executor.pending) hnew
    · obtain rfl := List.mem_singleton.mp ((List.mem_append.mp hc).resolve_left hnew)
      rfl
  · cases heffect with
    | @same y _ hy hold heq => exact ⟨y, hy, by rw [heq]; rfl, hold⟩
    | arrived hevent => cases hevent
    | rejected _ hevent => exact absurd (ServingEvent.advance.inj hevent).symm hj
    | executed hevent => cases hevent

/-- An operation that is run. -/
theorem Told.operate {environment : List StepOutcome} (h : Told router s history)
    (hs : Awaiting s) (hnext : s.next router (.operate environment) = some s') :
    ∃ i operation, Told router s'
        (history ++ [(i, ⟨operation, (operation.call environment s.executor.service).1⟩)]) ∧
      s'.executor.service = (operation.call environment s.executor.service).2 := by
  cases step_of_next hnext with
  | worker _ hevent => rcases hevent with hevent | hevent <;> cases hevent
  | operate job executor hworker hpending hservice =>
      have hjob : job ∈ s.executor.pending := by simp [hpending]
      obtain ⟨x, hx, hp⟩ :=
        Option.map_eq_some_iff.mp (hs.tracked.suspended _ (waiting_pending hjob))
      refine ⟨job.operation.request, job.operation.operation, h.post hs hnext hx
        (.pending hp hjob rfl) (fun x' task hx' hleft => ?_) fun j x' task hj heffect => ?_,
        hservice⟩
      · obtain ⟨y, hy, rfl⟩ := getElem?_modifyExchange hx'
        obtain rfl := Option.some.inj (hx.symm.trans hy)
        rw [if_pos rfl] at hleft ⊢
        exact ⟨rfl, Remaining.of_operated hs.tracked hleft hp hpending rfl rfl⟩
      · cases heffect with
        | @same y _ hy hold heq => exact ⟨y, hy, by rw [heq]; rfl, hold⟩
        | arrived hevent => cases hevent
        | rejected _ hevent => cases hevent
        | executed _ hworker' hi =>
            obtain rfl := Worker.running.inj (hworker.symm.trans hworker')
            exact absurd hi.symm hj

/-- **A step tells at most one request something, and the kitchen can say it.** -/
theorem Told.next (h : Told router s history) (hs : Awaiting s)
    (hk : Depicts s.executor.service k) (hnext : s.next router event = some s') :
    ∃ more k', servedRuns.Run k more k' ∧ Depicts s'.executor.service k' ∧
      Told router s' (history ++ more) := by
  by_cases hoperate : ∃ environment, event = .operate environment
  · obtain ⟨environment, rfl⟩ := hoperate
    obtain ⟨i, operation, htold, hservice⟩ := h.operate hs hnext
    obtain ⟨k', hserves, hk'⟩ := kitchen_simulates hk (serviceRuns_step rfl)
    exact ⟨_, k', .one (Or.inl hserves), hservice ▸ hk', htold⟩
  by_cases hrefuse : ∃ i x operation resume, event = .advance i ∧ s.exchanges[i]? = some x ∧
      x.progress = .running (.submit operation resume) ∧ ¬ s.executor.Admits
  · obtain ⟨i, x, operation, resume, rfl, hx, hp, hrefused⟩ := hrefuse
    obtain ⟨result, hresult, hservice, htold⟩ := h.refuse hs hnext hx hp hrefused
    exact ⟨_, k, .one (Or.inr ⟨hresult, rfl⟩), hservice ▸ hk, htold⟩
  have hservice : s'.executor.service = s.executor.service := by
    rcases service_of_step hnext with hservice | ⟨environment, -, hevent, -⟩
    · exact hservice
    · exact absurd ⟨environment, hevent⟩ hoperate
  refine ⟨[], k, .here, hservice ▸ hk, ?_⟩
  rw [List.append_nil]
  refine h.quiet hs hnext (fun i x operation resume hevent hx hp => ?_)
    fun environment hevent => hoperate ⟨environment, hevent⟩
  by_contra hrefused
  exact hrefuse ⟨i, x, operation, resume, hevent, hx, hp, hrefused⟩

/-! ## Runs -/

/-- There is always something left of a request, if only its response. -/
theorem exists_remaining (hs : Awaiting s) (hx : s.exchanges[i]? = some x) :
    ∃ task, Remaining s i x task := by
  cases hp : x.progress with
  | running task => exact ⟨task, .running hp⟩
  | answered response => exact ⟨_, .answered hp⟩
  | suspended =>
      rcases List.mem_append.mp (hs.awaits i x hx hp) with hi | hi
      · obtain ⟨job, hjob, hi⟩ := List.mem_map.mp hi
        exact ⟨_, .pending hp hjob hi⟩
      · obtain ⟨c, hc, hi⟩ := List.mem_map.mp hi
        exact ⟨_, .posted hp hc hi⟩

theorem told_of_reachable {start : Serving} (h : ((runs router).startingAt start).Reachable s)
    (hk : Depicts start.executor.service k) :
    Awaiting s ∧ ∃ history k', servedRuns.Run k history k' ∧ Depicts s.executor.service k' ∧
      Told router s history := by
  refine h.invariant (I := fun s => Awaiting s ∧ ∃ history k', servedRuns.Run k history k' ∧
    Depicts s.executor.service k' ∧ Told router s history) ?_ ?_
  · rintro s ⟨hinit, rfl⟩
    refine ⟨awaiting_init hinit, [], k, .here, hk, ?_⟩
    obtain ⟨m, queueCapacity, -, -, rfl⟩ := hinit
    exact ⟨by simp, by simp, by simp⟩
  · rintro s event s' ⟨hs, history, k', hrun, hk', htold⟩ hstep
    obtain ⟨more, k'', hmore, hk'', htold'⟩ := htold.next hs hk' hstep
    exact ⟨hs.next hstep, _, k'', hrun.append hmore, hk'', htold'⟩

/-- `history` explains what became of the requests.

* Each response is what `HandleAsync` makes of the answers to its own request.
* Nothing is done that a request did not ask for by its target, its method and its body.
* What a request is told comes after all that was told to those answered before it came. -/
structure Explains (router : Router) (history : List Telling) (exchanges : List Exchange) :
    Prop where
  responses : ∀ i x response, exchanges[i]? = some x → x.progress = .answered response →
    (router.handleAsync x.request).Hears (answersTo i history) (.done response)
  asked : ∀ telling ∈ history, ∃ x, exchanges[telling.1]? = some x ∧
    router.AsksFor x.request telling.2.1
  inOrder : ∀ i x j, exchanges[i]? = some x → j ∈ x.earlier →
    j < i ∧ history.Pairwise fun a b => a.1 = i → b.1 ≠ j

theorem Told.explains (h : Told router s history) (hs : Awaiting s) :
    Explains router history s.exchanges where
  responses i x response hx hp := h.hears i x _ hx (.answered hp)
  asked := by
    intro telling htelling
    have hi := h.arrived telling htelling
    obtain ⟨task, hremaining⟩ := exists_remaining hs (List.getElem?_eq_getElem hi)
    refine ⟨_, List.getElem?_eq_getElem hi, ?_⟩
    apply (h.hears _ _ task (List.getElem?_eq_getElem hi) hremaining).only Router.handleAsync_only
    exact List.mem_map_of_mem (List.mem_filter.mpr ⟨htelling, by simp⟩)
  inOrder i x j hx hj :=
    have ⟨hlt, _, horder⟩ := h.inOrder i x j hx hj
    ⟨hlt, horder⟩

/-- The database of a server that starts depicts a kitchen. -/
theorem exists_depicts {start : Serving} (h : (runs router).init start) :
    ∃ k, Depicts start.executor.service k := by
  obtain ⟨m, queueCapacity, hm, -, rfl⟩ := h
  have hrest : Rests Store.Valid (DBManager.onTables m.db.tables m.db.sequences) :=
    ⟨(rests_valid hm).1, rfl⟩
  exact ⟨_, depicts_ofStore hrest⟩

/-- **All requests share one kitchen**: whatever the interleaving, the refusals and the failures,
there is one history of the kitchen, from what the database depicted at the start to what it depicts
now, that explains every response and keeps the order of requests that did not overlap. -/
theorem requests_share_one_kitchen {start : Serving}
    (h : ((runs router).startingAt start).Reachable s) :
    (∃ k, Depicts start.executor.service k) ∧
      ∀ k, Depicts start.executor.service k → ∃ history k', servedRuns.Run k history k' ∧
        Depicts s.executor.service k' ∧ Explains router history s.exchanges := by
  have hstart : (runs router).init start := by
    refine h.invariant (I := fun _ => (runs router).init start) ?_ fun _ _ _ h _ => h
    rintro s ⟨hinit, rfl⟩
    exact hinit
  constructor
  · exact exists_depicts hstart
  · intro k hk
    obtain ⟨hs, history, k', hrun, hk', htold⟩ := told_of_reachable h hk
    exact ⟨history, k', hrun, hk', htold.explains hs⟩

/-- The cook who is answered with the milk of another, who has not been answered yet. -/
theorem requests_share_one_kitchen_cooks :
    let cooks := System.play (next milkRouter) (opened 2) overtakenPut
    (∃ history, Explains milkRouter history cooks.exchanges) ∧
      (cooks.exchanges.map fun x => x.progress.status) = [some .ok, none] := by
  intro cooks
  have hinit : ((runs milkRouter).startingAt (opened 2)).init (opened 2) :=
    ⟨opened_init (by decide), rfl⟩
  have hreach : ((runs milkRouter).startingAt (opened 2)).Reachable cooks :=
    System.Reachable.play (fun _ _ _ h => h) (.init hinit) overtakenPut
  obtain ⟨⟨k, hk⟩, hhistories⟩ := requests_share_one_kitchen hreach
  obtain ⟨history, -, -, -, hexplains⟩ := hhistories k hk
  exact ⟨⟨history, hexplains⟩, by decide +kernel⟩

end Serving

end RecipesCore.Net
