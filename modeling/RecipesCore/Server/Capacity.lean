import RecipesCore.App.Classification
import RecipesCore.Server.Linearizability

/-!
# How many requests the executor takes at once

The queue bounds the submissions that wait for the worker, and a request has at most one of them. So
`queue_capacity` is a bound on the requests that are not answered yet: below it no submission is
rejected and no client is told 503, and one more request is enough for a 503, whatever the capacity.
-/

namespace RecipesCore.App

open RecipesCore.Db
open RecipesCore.Logic
open RecipesCore.Types

/-! ## `Overloaded` comes from the queue only -/

section

variable {α : Type}

abbrev NotOverloaded (body : DbM (Expected α)) : Prop :=
  Triple (fun _ => True) body (fun result _ => errorCode result ≠ some .overloaded)
    (fun _ _ => False)

theorem guarded_notOverloaded {body : DbM (Expected α)}
    (h : Triple (fun _ => True) body (fun result _ => errorCode result ≠ some .overloaded)
      (fun _ _ => True)) : NotOverloaded (guarded body) := by
  refine Triple.tryCatch h fun e => ?_
  apply Triple.pure
  intro m _ hcode
  cases hcode

/-- A plain write or read fails as `Storage` only. -/
theorem guarded_map_notOverloaded {body : DbM α} : NotOverloaded (guarded (.ok <$> body)) := by
  apply guarded_notOverloaded
  apply Triple.map
  intro m _
  split
  · intro hcode
    cases hcode
  · trivial

/-- So does a create with the read behind it. -/
theorem createThenGet_notOverloaded {β : Type} {create : DbM β} {get : β → DbM (Option α)}
    {message : String} : NotOverloaded (createThenGet create get message) := by
  have htrue : ∀ {γ : Type} (body : DbM γ),
      Triple (fun _ => True) body (fun _ _ => True) (fun _ _ => True) := by
    intro γ body
    exact Triple.const.conseq (fun _ h => h) (fun _ _ h => h) (fun _ _ h => h)
  refine guarded_notOverloaded ((htrue create).bind fun id => (htrue (get id)).bind fun found => ?_)
  cases found with
  | none => exact Triple.pure fun _ _ hcode => by cases hcode
  | some a => exact Triple.pure fun _ _ hcode => by cases hcode

/-- An update or delete may also miss its id. -/
theorem requireFound_notOverloaded {body : DbM Bool} {message : String} :
    NotOverloaded (do return RecipeService.requireFound message (← guarded (.ok <$> body))) := by
  refine Triple.bind guarded_map_notOverloaded fun result => Triple.pure fun _ hresult hcode => ?_
  rcases result with error | found
  · exact hresult hcode
  · cases found <;> cases hcode

theorem invalid_notOverloaded {error : Error} (h : error.code = .validation) :
    NotOverloaded (return .error error : DbM (Expected α)) := by
  apply Triple.pure
  intro m _ hcode
  have hcode : some error.code = some .overloaded := hcode
  rw [h] at hcode
  cases hcode

/-- No use case reports an overload by itself. -/
theorem ServiceOperation.run_notOverloaded (op : ServiceOperation) : NotOverloaded op.run := by
  cases op with
  | createProduct product =>
      show NotOverloaded (RecipeService.createProduct _ product)
      unfold RecipeService.createProduct
      split
      · next h => exact invalid_notOverloaded (RecipeService.validateProduct_error h)
      · rw [createProduct_eq_createThenGet]
        exact createThenGet_notOverloaded
  | updateProduct productId product =>
      show NotOverloaded (RecipeService.updateProduct _ productId product)
      unfold RecipeService.updateProduct
      split
      · next h => exact invalid_notOverloaded (RecipeService.validateProduct_error h)
      · exact requireFound_notOverloaded
  | createRecipe recipe =>
      show NotOverloaded (RecipeService.createRecipe _ recipe)
      unfold RecipeService.createRecipe
      split
      · next h => exact invalid_notOverloaded (RecipeService.validateRecipe_error h)
      · rw [createRecipe_eq_createThenGet]
        exact createThenGet_notOverloaded
  | updateRecipe recipeId recipe =>
      show NotOverloaded (RecipeService.updateRecipe _ recipeId recipe)
      unfold RecipeService.updateRecipe
      split
      · next h => exact invalid_notOverloaded (RecipeService.validateRecipe_error h)
      · exact requireFound_notOverloaded
  | deleteProduct _ | deleteRecipe _ => exact requireFound_notOverloaded
  | getProduct _ | getProducts | getRecipe _ | getRecipes | getCookableRecipes =>
      exact guarded_map_notOverloaded

/-- **No call of the service is answered `Overloaded`**; that is up to the queue. -/
theorem ServiceOperation.call_notOverloaded {op : ServiceOperation}
    {environment : List StepOutcome} {m : DBManager} :
    errorCode (op.call environment m).1 ≠ some .overloaded :=
  ServiceOperation.call_triple (P := fun _ => True)
    (Q := fun result _ => errorCode result ≠ some .overloaded) op.run_notOverloaded trivial

end

end RecipesCore.App

namespace RecipesCore.Net

open RecipesCore.Api
open RecipesCore.App RecipesCore.App.DatabaseExecutor
open RecipesCore.Db
open RecipesCore.Logic
open RecipesCore.Types

/-! ## Coroutines that are not turned away -/

/-- Unless a submission comes back as `Overloaded`, the response is no 503. -/
def Task.Available : Task → Prop
  | .done response => response.status ≠ .serviceUnavailable
  | .submit _ resume => ∀ result, errorCode result ≠ some .overloaded → (resume result).Available

namespace Router

variable {router : Router} {request : Request}

/-- Of the application errors only `Overloaded` becomes a 503. -/
theorem makeAppErrorResponse_available {error : Error} (h : error.code ≠ .overloaded) :
    (router.makeAppErrorResponse error request).status ≠ .serviceUnavailable := by
  have hstatus : (router.makeAppErrorResponse error request).status =
      (appErrorStatus error.code).1 := rfl
  rw [hstatus]
  generalize error.code = code at h
  cases code with
  | overloaded => exact absurd rfl h
  | validation | notFound | conflict | storage => intro hc; cases hc

theorem serialized_available {status : Status} {what : String} {json : Except String String}
    (h : status ≠ .serviceUnavailable) :
    (router.serialized status request what json).status ≠ .serviceUnavailable := by
  cases json with
  | ok body => exact h
  | error e => exact (by decide : Status.internalServerError ≠ .serviceUnavailable)

/-- A submission whose result is answered, or an update that is read back. -/
theorem submit_available {operation : ServiceOperation} {k : operation.Result → Task}
    (h : ∀ a, (k a).Available) :
    (Task.submit operation (router.orAppError request k)).Available := by
  intro result hcode
  cases result with
  | ok a => exact h a
  | error error =>
      apply makeAppErrorResponse_available
      intro hc
      apply hcode
      show some error.code = some .overloaded
      rw [hc]

theorem found_available {α : Type} {missing what : String} {serialize : α → Except String String}
    (object : Option α) : (router.found request missing what serialize object).Available := by
  cases object with
  | none => exact (by decide : Status.notFound ≠ .serviceUnavailable)
  | some a => exact serialized_available (by decide)

theorem getProduct_available (productId : Int) : (router.getProduct request productId).Available :=
  submit_available found_available

theorem getRecipe_available (recipeId : Int) : (router.getRecipe request recipeId).Available :=
  submit_available found_available

/-- A body that does not parse is a 400 or 422. -/
theorem withBody_available {α : Type} {parse : String → Except (Status × String) α} {k : α → Task}
    (hparse : ∀ status message, parse request.body = .error (status, message) →
      status = .badRequest ∨ status = .unprocessableEntity)
    (h : ∀ a, (k a).Available) : (router.withBody request parse k).Available := by
  unfold withBody
  split
  · split
    · next status message heq =>
        show status ≠ .serviceUnavailable
        rcases hparse status message heq with rfl | rfl <;> decide
    · exact h _
  · exact (by decide : Status.unsupportedMediaType ≠ .serviceUnavailable)

theorem handle_available : (Task.done (router.handle request)).Available := by
  show (router.handle request).status ≠ .serviceUnavailable
  unfold handle
  dsimp only
  split
  · split
    · exact (by decide : Status.methodNotAllowed ≠ .serviceUnavailable)
    · exact (by decide : Status.ok ≠ .serviceUnavailable)
  · repeat' split
    all_goals first
      | exact (by decide : Status.methodNotAllowed ≠ .serviceUnavailable)
      | exact (by decide : Status.notFound ≠ .serviceUnavailable)

theorem handleProducts_available (h : router.databaseExecutor = true) (productId : Option Int) :
    (router.handleProducts request productId).Available := by
  unfold handleProducts
  rw [if_pos h]
  split
  · exact withBody_available (fun _ _ h => parseProduct_error h) fun _ =>
      submit_available fun _ => serialized_available (by decide)
  · exact withBody_available (fun _ _ h => parseProduct_error h) fun _ =>
      submit_available fun _ => getProduct_available _
  · exact submit_available fun _ => (by decide : Status.noContent ≠ .serviceUnavailable)
  · exact getProduct_available _
  · exact submit_available fun _ => serialized_available (by decide)
  · exact handle_available

theorem handleRecipes_available (h : router.databaseExecutor = true) (cookable : Bool) :
    (router.handleRecipes request cookable).Available := by
  unfold handleRecipes
  rw [if_pos h]
  split
  · exact submit_available fun _ => serialized_available (by decide)
  · exact submit_available fun _ => serialized_available (by decide)

theorem handleRecipeItem_available (h : router.databaseExecutor = true) (recipeId : Int) :
    (router.handleRecipeItem request recipeId).Available := by
  unfold handleRecipeItem
  rw [if_pos h]
  split
  · exact getRecipe_available _
  · exact withBody_available (fun _ _ h => parseRecipe_error h) fun _ =>
      submit_available fun _ => getRecipe_available _
  · exact submit_available fun _ => (by decide : Status.noContent ≠ .serviceUnavailable)
  · exact handle_available

/-- **With an executor, only an overload makes a 503.** -/
theorem handleAsync_available (h : router.databaseExecutor = true) :
    (router.handleAsync request).Available := by
  simp only [handleAsync]
  split
  · exact handleProducts_available h _
  · split
    · split
      · exact withBody_available (fun _ _ h => parseRecipe_error h) fun _ =>
          submit_available fun _ => serialized_available (by decide)
      · split
        · exact handleRecipes_available h _
        · exact handle_available
    · split
      · exact handleRecipeItem_available h _
      · exact handle_available

end Router

/-! ## A bounded number of requests -/

namespace Serving

variable {router : Router} {s s' start : Serving} {event : ServingEvent} {i limit : Nat}
  {x x' : Exchange} {task : Task}

/-- The places of the requests that are not answered yet. -/
def unanswered (s : Serving) : List Nat :=
  (List.range s.exchanges.length).filter fun i =>
    ((s.exchanges[i]?).bind fun x => x.progress.response).isNone

/-- A request comes in while fewer than `limit` are unanswered, and nobody stops the executor. -/
def WithinLimit (limit : Nat) (s : Serving) : ServingEvent → Prop
  | .arrive _ => s.unanswered.length < limit
  | .stop => False
  | .advance _ | .wake | .operate _ | .deliver _ => True

def limitedRuns (router : Router) (start : Serving) (limit : Nat) : System Serving ServingEvent :=
  ((runs router).startingAt start).restrict (WithinLimit limit)

/-- Nobody was told 503. -/
def TurnsNobodyAway (s : Serving) : Prop :=
  ∀ x ∈ s.exchanges, ∀ response, x.progress = .answered response →
    response.status ≠ .serviceUnavailable

/-- The requests without an answer yet. -/
theorem mem_unanswered : i ∈ s.unanswered ↔
    ∃ x, s.exchanges[i]? = some x ∧ x.progress.response = none := by
  simp only [unanswered, List.mem_filter, List.mem_range, Option.isNone_iff_eq_none]
  constructor
  · rintro ⟨hi, hnone⟩
    refine ⟨s.exchanges[i], List.getElem?_eq_getElem hi, ?_⟩
    rwa [List.getElem?_eq_getElem hi, Option.bind_some] at hnone
  · rintro ⟨x, hx, hnone⟩
    exact ⟨(List.getElem?_eq_some_iff.mp hx).1, by rw [hx, Option.bind_some, hnone]⟩

theorem unanswered_nodup : s.unanswered.Nodup := List.nodup_range.filter _

theorem unanswered_length_le : s.unanswered.length ≤ s.exchanges.length := by
  have h := List.length_filter_le (fun i =>
    ((s.exchanges[i]?).bind fun x => x.progress.response).isNone) (List.range s.exchanges.length)
  rwa [List.length_range] at h

/-! ## What a step does to the bound -/

/-- The executor goes on with its capacity, and starts to reject only where it does not admit. -/
theorem executor_of_next (h : s.next router event = some s') (haccepts : s.Accepts event) :
    s'.executor.queueCapacity = s.executor.queueCapacity ∧
      s'.executor.rejected = s.executor.rejected ∧
      (event ≠ .stop → s'.executor.stopping = s.executor.stopping) := by
  cases event with
  | arrive request =>
      obtain rfl := Option.some.inj h
      exact ⟨rfl, rfl, fun _ => rfl⟩
  | advance i =>
      simp only [next] at h
      cases hx : s.exchanges[i]? with
      | none => simp [hx] at h
      | some x =>
          simp only [hx, Option.map_some] at h
          split at h
          · obtain rfl := Option.some.inj h
            exact ⟨rfl, rfl, fun _ => rfl⟩
          · next operation resume hp =>
              obtain rfl := Option.some.inj h
              obtain ⟨request, progress, earlier, changed, left⟩ := x
              obtain rfl : progress = _ := Option.some.inj hp
              have hadmits : s.executor.Admits := haccepts (by simp [submits, hx])
              have heq : s.executor.asyncSubmit ({ request := i, operation, resume } : Ticket) = _ :=
                enqueue_of_admits hadmits
              simp only [submit, withExecutor, modifyExchange, heq]
              exact ⟨trivial, trivial, fun _ => trivial⟩
          · cases h
  | wake =>
      obtain ⟨executor, hwake, rfl⟩ := Option.map_eq_some_iff.mp h
      obtain ⟨-, ⟨-, -, rfl⟩ | ⟨job, queue, -, rfl⟩⟩ := wake_eq_some hwake
      · exact ⟨rfl, rfl, fun _ => rfl⟩
      · exact ⟨rfl, rfl, fun _ => rfl⟩
  | operate environment =>
      simp only [next] at h
      split at h
      · obtain ⟨executor, hoperate, rfl⟩ := Option.map_eq_some_iff.mp h
        obtain ⟨job, -, rfl⟩ := operate_eq_some hoperate
        exact ⟨rfl, rfl, fun _ => rfl⟩
      · cases h
  | deliver k =>
      obtain ⟨c, -, rfl⟩ := Option.map_eq_some_iff.mp h
      exact ⟨rfl, rfl, fun _ => rfl⟩
  | stop =>
      obtain rfl := Option.some.inj h
      exact ⟨rfl, rfl, fun hne => absurd rfl hne⟩

/-- A step that changes an exchange which is not answered leaves no more unanswered. -/
theorem unanswered_of_modify {j : Nat} {f : Exchange → Exchange}
    (hexchanges : s'.exchanges = (s.modifyExchange j f).exchanges)
    (hj : ∀ x, s.exchanges[j]? = some x → x.progress.response = none) :
    s'.unanswered ⊆ s.unanswered := by
  intro i hi
  obtain ⟨x', hx', hnone⟩ := mem_unanswered.mp hi
  rw [hexchanges] at hx'
  obtain ⟨x, hx, rfl⟩ := getElem?_modifyExchange hx'
  apply mem_unanswered.mpr
  by_cases hij : j = i
  · subst hij
    exact ⟨x, hx, hj x hx⟩
  · rw [if_neg hij] at hnone
    exact ⟨x, hx, hnone⟩

/-- Only an arriving request is one more that is not answered. -/
theorem unanswered_step (hs : Tracked s) (h : s.next router event = some s') :
    s'.unanswered ⊆ s.unanswered ∨
      ∃ request, event = .arrive request ∧ s'.unanswered ⊆ s.exchanges.length :: s.unanswered := by
  cases step_of_next h with
  | arrive request =>
      refine Or.inr ⟨request, rfl, fun i hi => ?_⟩
      obtain ⟨x, hx, hnone⟩ := mem_unanswered.mp hi
      rw [List.getElem?_append] at hx
      split at hx
      · exact List.mem_cons_of_mem _ (mem_unanswered.mpr ⟨x, hx, hnone⟩)
      · next hge =>
          have hlt : i < s.exchanges.length + 1 := by
            have := (List.getElem?_eq_some_iff.mp hx).1
            simp only [List.length_cons, List.length_nil] at this
            omega
          obtain rfl : i = s.exchanges.length := by omega
          exact List.mem_cons_self
  | answer hx hp =>
      refine Or.inl (unanswered_of_modify rfl fun y hy => ?_)
      obtain rfl := Option.some.inj (hx.symm.trans hy)
      rw [hp]
      rfl
  | accept job executor hx hp =>
      refine Or.inl (unanswered_of_modify rfl fun y hy => ?_)
      obtain rfl := Option.some.inj (hx.symm.trans hy)
      rw [hp]
      rfl
  | reject job error executor hx hp =>
      refine Or.inl (unanswered_of_modify rfl fun y hy => ?_)
      obtain rfl := Option.some.inj (hx.symm.trans hy)
      rw [hp]
      rfl
  | worker => exact Or.inl fun i hi => hi
  | operate job executor hworker hpending =>
      refine Or.inl (unanswered_of_modify rfl fun y hy => ?_)
      have hjob : job ∈ s.executor.pending := by simp [hpending]
      rw [hs.suspended_of hy (waiting_pending hjob)]
      rfl
  | deliver k c hc =>
      refine Or.inl (unanswered_of_modify rfl fun y hy => ?_)
      rw [hs.suspended_of hy (waiting_posted (List.mem_of_getElem? hc))]
      rfl

/-! ## Below the capacity -/

/-- The queue has room for whoever is about to submit. -/
structure Roomy (router : Router) (capacity : Nat) (s : Serving) : Prop where
  tracked : Tracked s
  capacity_eq : s.executor.queueCapacity = capacity
  accepting : s.executor.stopping = false
  few : s.unanswered.length ≤ capacity
  available : router.databaseExecutor = true → ∀ i x task, s.exchanges[i]? = some x →
    Remaining s i x task → task.Available

/-- The queued submissions and the one to come belong to different requests, none answered. -/
theorem Roomy.admits {capacity : Nat} (h : Roomy router capacity s) (hx : s.exchanges[i]? = some x)
    (hp : x.progress = .running task) : s.executor.Admits := by
  have hqueue : (s.executor.queue.map fun job => job.operation.request).Sublist s.waiting := by
    apply List.Sublist.trans _ (List.sublist_append_left _ _)
    exact (List.sublist_append_right s.executor.worker.job s.executor.queue).map _
  have hnodup : (i :: s.executor.queue.map fun job => job.operation.request).Nodup := by
    refine List.nodup_cons.mpr ⟨fun hi => ?_, hqueue.nodup h.tracked.once⟩
    exact h.tracked.not_waiting hx hp (hqueue.subset hi)
  have hsubset : (i :: s.executor.queue.map fun job => job.operation.request) ⊆ s.unanswered := by
    intro j hj
    rcases List.mem_cons.mp hj with rfl | hj
    · exact mem_unanswered.mpr ⟨x, hx, by rw [hp]; rfl⟩
    · obtain ⟨y, hy, hsuspended⟩ :=
        Option.map_eq_some_iff.mp (h.tracked.suspended j (hqueue.subset hj))
      exact mem_unanswered.mpr ⟨y, hy, by rw [hsuspended]; rfl⟩
  have hle := (List.subperm_of_subset hnodup hsubset).length_le
  have hfew := h.few
  rw [List.length_cons, List.length_map] at hle
  refine ⟨h.accepting, ?_⟩
  rw [h.capacity_eq]
  omega

/-- Where there is room every event is accepted. -/
theorem Roomy.accepts {capacity : Nat} (h : Roomy router capacity s) (event : ServingEvent) :
    s.Accepts event := by
  cases event with
  | advance i =>
      intro hsubmits
      unfold submits at hsubmits
      split at hsubmits
      · next hx => exact h.admits hx rfl
      · cases hsubmits
  | arrive | wake | operate | deliver | stop => trivial

/-- A request takes at most one place, so within the limit there stays room. -/
theorem Roomy.next {capacity : Nat} (h : Roomy router capacity s) (hlimit : limit ≤ capacity)
    (hwithin : s.WithinLimit limit event) (hstep : s.next router event = some s') :
    Roomy router capacity s' := by
  obtain ⟨hcapacity, -, hstopping⟩ := executor_of_next hstep (h.accepts event)
  constructor
  · exact h.tracked.step (step_of_next hstep)
  · rw [hcapacity, h.capacity_eq]
  · rw [hstopping ?_, h.accepting]
    rintro rfl
    exact hwithin
  · rcases unanswered_step h.tracked hstep with hsubset | ⟨request, rfl, hsubset⟩
    · exact Nat.le_trans (List.subperm_of_subset unanswered_nodup hsubset).length_le h.few
    · have hlt : s.unanswered.length < limit := hwithin
      have hle := (List.subperm_of_subset unanswered_nodup hsubset).length_le
      rw [List.length_cons] at hle
      omega
  · intro hexecutor i x' task hx' hremaining
    cases step_effect h.tracked hstep hx' hremaining with
    | same hx hbefore => exact h.available hexecutor _ _ _ hx hbefore
    | arrived => exact Router.handleAsync_available hexecutor
    | rejected error _ hx hp hadmits => exact absurd (h.admits hx hp) hadmits
    | executed _ _ _ hx hbefore =>
        exact h.available hexecutor _ _ _ hx hbefore _ ServiceOperation.call_notOverloaded

theorem roomy_init (h : (runs router).init start) :
    Roomy router start.executor.queueCapacity start := by
  obtain ⟨m, queueCapacity, -, -, rfl⟩ := h
  exact ⟨tracked_start, rfl, rfl, Nat.zero_le _, by simp⟩

/-- So there is room in every state that can be reached. -/
theorem roomy_of_reachable (hlimit : limit ≤ start.executor.queueCapacity)
    (h : (limitedRuns router start limit).Reachable s) :
    Roomy router start.executor.queueCapacity s := by
  induction h with
  | init hinit =>
      obtain ⟨hinit, rfl⟩ := hinit
      exact roomy_init hinit
  | step _ hstep ih => exact ih.next hlimit hstep.1 hstep.2

/-- Below the capacity every submission is accepted. -/
theorem accepted_of_reachable (hlimit : limit ≤ start.executor.queueCapacity)
    (h : (limitedRuns router start limit).Reachable s) : (acceptedRuns router start).Reachable s := by
  induction h with
  | init hinit => exact .init hinit
  | @step s s' event hreach hstep ih =>
      exact .step ih ⟨(roomy_of_reachable hlimit hreach).accepts event, hstep.2⟩

/-- Where there is room no request is turned away. -/
theorem Roomy.turnsNobodyAway {capacity : Nat} (h : Roomy router capacity s)
    (hexecutor : router.databaseExecutor = true) : s.TurnsNobodyAway := by
  intro x hx response hanswered
  obtain ⟨i, hi⟩ := List.getElem?_of_mem hx
  exact h.available hexecutor i x (.done response) hi (.answered hanswered)

/-! ## One request more

`limit` lists of the products come in before anything else happens. The first `queueCapacity` of
them fill the queue, and the next one is told 503. -/

def productList : Request := { method := .get, target := "/v1/products" }

def productListExchange (router : Router) : Exchange :=
  { request := productList, progress := .running (router.listProducts productList), earlier := [] }

theorem handleAsync_productList (hexecutor : router.databaseExecutor = true) :
    router.handleAsync productList = router.listProducts productList := by
  have hid : parseProductId productList.target = none := by decide +kernel
  rw [Router.handleAsync_products (Or.inl ⟨rfl, Or.inl rfl⟩), hid]
  simp [Router.handleProducts, hexecutor, productList]

/-- All of them have come in. -/
theorem reachable_crowd (hinit : (runs router).init start) (hexecutor : router.databaseExecutor = true)
    {n : Nat} (hn : n ≤ limit) : (limitedRuns router start limit).Reachable
      { start with exchanges := List.replicate n (productListExchange router) } := by
  obtain ⟨m, queueCapacity, hm, hpos, rfl⟩ := hinit
  induction n with
  | zero => exact .init ⟨⟨m, queueCapacity, hm, hpos, rfl⟩, rfl⟩
  | succ n ih =>
      refine .step (ih (by omega)) (l := .arrive productList) ⟨?_, ?_⟩
      · refine Nat.lt_of_le_of_lt unanswered_length_le ?_
        rw [List.length_replicate]
        omega
      · show Serving.next router _ (.arrive productList) = _
        simp only [Serving.next, handleAsync_productList hexecutor, List.replicate_succ']
        rfl

/-- The first `n` have filled `n` places of the queue, and the others are still running. -/
structure Filled (router : Router) (limit n : Nat) (s : Serving) : Prop where
  accepting : s.executor.stopping = false
  queued : s.executor.queue.length = n
  posted : s.posted = []
  running : ∀ i, n ≤ i → i < limit →
    (s.exchanges[i]?).map Exchange.progress = some (.running (router.listProducts productList))

/-- What the handler submits for the request at a place. -/
def productListTicket (router : Router) (i : Nat) : Ticket where
  request := i
  operation := .getProducts
  resume := router.orAppError productList fun products =>
    .done (router.serialized .ok productList "products"
      (router.glaze.serializeProducts (products.map toProductResponse)))

/-- The next of the requests can submit its list. -/
theorem Filled.next_submit {n : Nat} (h : Filled router limit n s) (hlt : n < limit) :
    s.next router (.advance n) = some (s.submit (productListTicket router n)) := by
  simp only [Serving.next, h.running n (Nat.le_refl n) hlt]
  rfl

theorem Filled.submit {n : Nat} (h : Filled router limit n s) (hadmits : s.executor.Admits) :
    (s.submit (productListTicket router n)).executor.queueCapacity = s.executor.queueCapacity ∧
      Filled router limit (n + 1) (s.submit (productListTicket router n)) := by
  have heq : s.executor.asyncSubmit (productListTicket router n) = _ := enqueue_of_admits hadmits
  have hsubmit : s.submit (productListTicket router n) = { s with
      executor := s.executor.asyncSubmit (productListTicket router n)
      exchanges := s.exchanges.modify n (Exchange.to .suspended) } := by
    have hnone : newlyCompleted s.executor (s.executor.asyncSubmit (productListTicket router n)) =
        [] := by simp [newlyCompleted, heq]
    simp only [Serving.submit, withExecutor, modifyExchange, hnone, List.append_nil]
    rfl
  rw [hsubmit, heq]
  refine ⟨rfl, h.accepting, by simp [h.queued], h.posted, fun i hle hi => ?_⟩
  have hne : n ≠ i := by omega
  simpa [List.getElem?_modify, hne] using h.running i (by omega) hi

/-- As many requests as the queue holds can wait in it. -/
theorem reachable_filled (hinit : (runs router).init start)
    (hexecutor : router.databaseExecutor = true) (hlimit : start.executor.queueCapacity < limit)
    {n : Nat} (hn : n ≤ start.executor.queueCapacity) :
    ∃ s, (limitedRuns router start limit).Reachable s ∧
      s.executor.queueCapacity = start.executor.queueCapacity ∧ Filled router limit n s := by
  induction n with
  | zero =>
      refine ⟨_, reachable_crowd hinit hexecutor (Nat.le_refl limit), rfl, ?_⟩
      obtain ⟨m, queueCapacity, -, -, rfl⟩ := hinit
      refine ⟨rfl, rfl, rfl, fun i _ hi => ?_⟩
      rw [List.getElem?_replicate, if_pos hi]
      rfl
  | succ n ih =>
      obtain ⟨s, hreach, hcapacity, hfilled⟩ := ih (by omega)
      have hadmits : s.executor.Admits := by
        refine ⟨hfilled.accepting, ?_⟩
        rw [hfilled.queued, hcapacity]
        omega
      obtain ⟨hsame, hmore⟩ := hfilled.submit hadmits
      refine ⟨_, .step hreach (l := .advance n) ⟨trivial, ?_⟩, hsame.trans hcapacity, hmore⟩
      exact hfilled.next_submit (by omega)

/-- The next one is rejected, and goes on to answer 503. -/
theorem Filled.turnsAway {n : Nat} (h : Filled router limit n s) (hlt : n < limit)
    (hfull : s.executor.queueCapacity ≤ n) (hreach : (limitedRuns router start limit).Reachable s) :
    ∃ t, (limitedRuns router start limit).Reachable t ∧ ¬ t.TurnsNobodyAway := by
  obtain ⟨x, hx, hp⟩ := Option.map_eq_some_iff.mp (h.running n (Nat.le_refl n) hlt)
  let job : Job Ticket := ⟨s.executor.submissions, .handler, productListTicket router n⟩
  let refused : Completion ticketWorkload.Result := ⟨job, .error queueFullError⟩
  let refusal : Response := router.makeAppErrorResponse queueFullError productList
  have heq : s.executor.asyncSubmit (productListTicket router n) = { s.executor with
      submissions := s.executor.submissions + 1
      rejected := s.executor.rejected ++ [refused] } := by
    simp only [asyncSubmit, enqueue, h.accepting, Bool.false_eq_true, if_false, h.queued,
      if_pos hfull]
    rfl
  -- the submission is refused, resumed with the refusal, and answered
  let t := s.submit (productListTicket router n)
  have hposted : t.posted = [refused] := by
    simp [t, Serving.submit, withExecutor, modifyExchange, newlyCompleted, heq, h.posted]
  have ht : (limitedRuns router start limit).Reachable t :=
    .step hreach (l := .advance n) ⟨trivial, h.next_submit hlt⟩
  let u := t.resume 0 refused
  have hu : (limitedRuns router start limit).Reachable u := by
    refine .step ht (l := .deliver 0) ⟨trivial, ?_⟩
    show t.next router (.deliver 0) = some u
    rw [Serving.next, hposted]
    rfl
  have hrunning : u.exchanges[n]? = some (x.to (.running (.done refusal))) := by
    simp only [u, t, resume, Serving.submit, withExecutor, modifyExchange, List.getElem?_modify, hx]
    simp [refused, job, productListTicket, Exchange.to, Router.orAppError, refusal]
  let v := u.answer n refusal
  have hv : (limitedRuns router start limit).Reachable v := by
    refine .step hu (l := .advance n) ⟨trivial, ?_⟩
    show u.next router (.advance n) = some v
    simp only [Serving.next, hrunning, Option.map_some]
    rfl
  refine ⟨v, hv, fun hnobody => ?_⟩
  have hanswered : v.exchanges[n]? = some (x.to (.answered refusal)) := by
    simp only [v, Serving.answer, modifyExchange, List.getElem?_modify, hrunning]
    simp [Exchange.to]
  exact hnobody _ (List.mem_of_getElem? hanswered) refusal rfl rfl

/-- **The capacity of the queue is the number of requests that the server takes at once.** While
requests come in below that number every run has all its submissions accepted and nobody is told
503; with one more, somebody is in some run. -/
theorem turns_nobody_away_iff (hinit : (runs router).init start)
    (hexecutor : router.databaseExecutor = true) :
    ((∀ s, (limitedRuns router start limit).Reachable s →
        (acceptedRuns router start).Reachable s ∧ s.TurnsNobodyAway) ↔
      limit ≤ start.executor.queueCapacity) ∧
    (start.executor.queueCapacity < limit →
      ∃ s, (limitedRuns router start limit).Reachable s ∧ ¬ s.TurnsNobodyAway) := by
  have hcrowd : start.executor.queueCapacity < limit →
      ∃ s, (limitedRuns router start limit).Reachable s ∧ ¬ s.TurnsNobodyAway := by
    intro hlimit
    obtain ⟨s, hreach, hcapacity, hfilled⟩ :=
      reachable_filled hinit hexecutor hlimit (Nat.le_refl _)
    exact hfilled.turnsAway hlimit (Nat.le_of_eq hcapacity) hreach
  refine ⟨⟨fun hnobody => ?_, fun hlimit s hreach => ?_⟩, hcrowd⟩
  · by_contra hlimit
    obtain ⟨t, ht, hsomebody⟩ := hcrowd (Nat.lt_of_not_le hlimit)
    exact hsomebody (hnobody t ht).2
  · exact ⟨accepted_of_reachable hlimit hreach,
      (roomy_of_reachable hlimit hreach).turnsNobodyAway hexecutor⟩

/-- A queue of two takes two requests, and not three. -/
theorem turns_nobody_away_iff_two :
    (∀ s, (limitedRuns milkRouter (opened 2) 2).Reachable s →
      (acceptedRuns milkRouter (opened 2)).Reachable s ∧ s.TurnsNobodyAway) ∧
    ∃ s, (limitedRuns milkRouter (opened 2) 3).Reachable s ∧ ¬ s.TurnsNobodyAway :=
  ⟨(turns_nobody_away_iff (opened_init Nat.two_pos) rfl).1.mpr (Nat.le_refl 2),
    (turns_nobody_away_iff (opened_init Nat.two_pos) rfl).2 (Nat.lt_succ_self 2)⟩

end Serving

end RecipesCore.Net
