import RecipesCore.App.Submissions
import RecipesCore.Server.Serving

/-!
# What an error response means

A request that is answered with an error should have had no effect. The handlers get this from the
store, where a failed write changes nothing; but a `PUT` reads its object back in a second
submission, and a create in the same one, and when that read fails the write is not undone.
`ReadsSucceed` says of a step that it makes no such read fail.

`Task.Spares` carries the argument along a coroutine: whatever the submissions that are left may
still do, an error at the end means that nothing was changed.
-/

namespace RecipesCore.Net

open RecipesCore.Api
open RecipesCore.App RecipesCore.App.DatabaseExecutor
open RecipesCore.Db
open RecipesCore.Logic
open RecipesCore.Types

/-! ## Tasks -/

/-- The object was read. -/
def Finds : (operation : ServiceOperation) → Expected operation.Result → Prop
  | .getProduct _, result => ∃ product, result = .ok (some product)
  | .getRecipe _, result => ∃ recipe, result = .ok (some recipe)
  | _, _ => True

/-- What a submission may come back with, and whether the request has changed a table then: an error
changes nothing, nor does a read, and a read after a change succeeds. -/
structure Possible (changed : Bool) (operation : ServiceOperation)
    (result : Expected operation.Result) (changed' : Bool) : Prop where
  keeps : changed = true → changed' = true
  finds : changed = true → Finds operation result
  error : changed = false → ∀ e, result = .error e → changed' = false
  read : changed = false → operation.onlyReads = true → changed' = false

/-- However the submissions come back, an error response means that nothing was changed. -/
def Task.Spares : Bool → Task → Prop
  | changed, .done response => response.status.failed → changed = false
  | changed, .submit operation resume => ∀ result changed',
      Possible changed operation result changed' → Spares changed' (resume result)

namespace Router

variable {router : Router} {request : Request} {changed : Bool}

theorem done_spares {response : Response} : (Task.done response).Spares false := fun _ => rfl

theorem succeeded_spares {response : Response} (h : ¬ response.status.failed) :
    (Task.done response).Spares changed := fun hfailed => absurd hfailed h

theorem serialized_spares {status : Status} {what body : String} {json : Except String String}
    (hjson : json = .ok body) (h : ¬ status.failed) :
    (Task.done (router.serialized status request what json)).Spares changed := by
  rw [hjson]
  exact succeeded_spares h

theorem withBody_spares {α : Type} {parse : String → Except (Status × String) α} {k : α → Task}
    (h : ∀ a, (k a).Spares false) : (router.withBody request parse k).Spares false := by
  unfold withBody
  split
  · split
    · exact done_spares
    · exact h _
  · exact done_spares

/-- A first submission: an error leaves everything as it was. -/
theorem first_spares {operation : ServiceOperation} {k : operation.Result → Task}
    (h : ∀ a changed', (operation.onlyReads = true → changed' = false) → (k a).Spares changed') :
    (Task.submit operation (router.orAppError request k)).Spares false := by
  intro result changed' hpossible
  cases result with
  | error e =>
      rw [hpossible.error rfl e rfl]
      exact done_spares
  | ok a => exact h a changed' (hpossible.read rfl)

theorem getProduct_spares (hglaze : router.glaze.WritesAll) (productId : Int) :
    (router.getProduct request productId).Spares changed := by
  intro result changed' hpossible
  cases changed with
  | false =>
      rw [hpossible.read rfl rfl]
      rcases result with e | _ | product <;> exact done_spares
  | true =>
      obtain ⟨product, rfl⟩ := hpossible.finds rfl
      obtain ⟨body, hbody⟩ := hglaze.product (toProductResponse product)
      exact serialized_spares hbody (by decide)

theorem getRecipe_spares (hglaze : router.glaze.WritesAll) (recipeId : Int) :
    (router.getRecipe request recipeId).Spares changed := by
  intro result changed' hpossible
  cases changed with
  | false =>
      rw [hpossible.read rfl rfl]
      rcases result with e | _ | recipe <;> exact done_spares
  | true =>
      obtain ⟨recipe, rfl⟩ := hpossible.finds rfl
      obtain ⟨body, hbody⟩ := hglaze.recipe (toRecipeResponse recipe)
      exact serialized_spares hbody (by decide)

theorem handleProducts_spares (hglaze : router.glaze.WritesAll) (productId : Option Int) :
    (router.handleProducts request productId).Spares false := by
  unfold handleProducts
  split
  · split
    · refine withBody_spares fun product => first_spares fun created changed' _ => ?_
      obtain ⟨body, hbody⟩ := hglaze.product (toProductResponse created)
      exact serialized_spares hbody (by decide)
    · exact withBody_spares fun product => first_spares fun _ _ _ => getProduct_spares hglaze _
    · exact first_spares fun _ _ _ => succeeded_spares (by decide : ¬ Status.noContent.failed)
    · exact getProduct_spares hglaze _
    · refine first_spares fun products changed' hread => ?_
      rw [hread rfl]
      exact done_spares
    · exact done_spares
  · exact done_spares

theorem handleRecipes_spares (cookable : Bool) :
    (router.handleRecipes request cookable).Spares false := by
  have hanswer : ∀ {operation : ServiceOperation} {answer : operation.Result → Response},
      operation.onlyReads = true →
      (Task.submit operation (router.orAppError request fun a => .done (answer a))).Spares false :=
    fun hread => first_spares fun a changed' h => by
      rw [h hread]
      exact done_spares
  unfold handleRecipes
  split
  · split
    · exact hanswer rfl
    · exact hanswer rfl
  · exact done_spares

theorem createRecipe_spares (hglaze : router.glaze.WritesAll) :
    (router.createRecipe request).Spares false := by
  refine withBody_spares fun recipe => first_spares fun created changed' _ => ?_
  obtain ⟨body, hbody⟩ := hglaze.recipe (toRecipeResponse created)
  exact serialized_spares hbody (by decide)

theorem handleRecipeItem_spares (hglaze : router.glaze.WritesAll) (recipeId : Int) :
    (router.handleRecipeItem request recipeId).Spares false := by
  unfold handleRecipeItem
  split
  · split
    · exact getRecipe_spares hglaze _
    · exact withBody_spares fun recipe => first_spares fun _ _ _ => getRecipe_spares hglaze _
    · exact first_spares fun _ _ _ => succeeded_spares (by decide : ¬ Status.noContent.failed)
    · exact done_spares
  · exact done_spares

/-- **Every handler answers an error only if nothing was changed**, as far as it lies with it. -/
theorem handleAsync_spares (hglaze : router.glaze.WritesAll) :
    (router.handleAsync request).Spares false := by
  simp only [handleAsync]
  split
  · exact handleProducts_spares hglaze _
  · split
    · split
      · split
        · exact createRecipe_spares hglaze
        · split
          · exact handleRecipes_spares _
          · exact done_spares
      · exact done_spares
    · split
      · exact handleRecipeItem_spares hglaze _
      · exact done_spares

end Router

/-! ## Runs -/

namespace Serving

/-- The next thing the request does is to submit, and it has changed a table before. -/
def submitsAfterChange (s : Serving) (i : Nat) : Bool :=
  match s.exchanges[i]? with
  | some ⟨_, .running (.submit _ _), _, true, _⟩ => true
  | _ => false

/-- The step makes no read fail that follows a change of the same request: such a read is submitted
when the executor admits it, and when it runs, as at the end of a create, it succeeds. -/
def ReadsSucceed (s : Serving) : ServingEvent → Prop
  | .advance i => s.submitsAfterChange i = true → s.executor.Admits
  | .operate environment => ∀ job ∈ s.executor.worker.job,
      (s.exchanges[job.operation.request]?).any Exchange.changed = true ∨
        job.operation.operation.creates = true →
      job.operation.operation.readsBack environment s.executor.service
  | .arrive _ | .wake | .deliver _ | .stop => True

instance (s : Serving) : (event : ServingEvent) → Decidable (s.ReadsSucceed event)
  | .advance _ => inferInstanceAs (Decidable (_ → _))
  | .operate _ => List.decidableBAll _ _
  | .arrive _ | .wake | .deliver _ | .stop => isTrue trivial

variable {router : Router} {s : Serving}

/-- The submissions that run under the condition are possible ones. -/
theorem call_possible {operation : ServiceOperation} {environment : List StepOutcome}
    {m : DBManager} {changed : Bool} (hrest : Rests Store.Valid m)
    (hback : changed = true ∨ operation.creates = true → operation.readsBack environment m) :
    Possible changed operation (operation.call environment m).1
      (changed || decide ((operation.call environment m).2.db.tables ≠ m.db.tables)) where
  keeps h := by simp [h]
  finds h := by
    have hback := hback (Or.inl h)
    cases operation with
    | getProduct productId =>
        obtain ⟨hflag, henv, hrow⟩ := hback
        obtain ⟨product, hproduct⟩ := findProduct_ne_none hrow
        exact ⟨product, by rw [call_getProduct hflag henv, hproduct]⟩
    | getRecipe recipeId =>
        obtain ⟨hflag, henv, hrow⟩ := hback
        obtain ⟨recipe, hrecipe⟩ := findRecipe_ne_none hrest.1 hrow
        exact ⟨recipe, by rw [call_getRecipe hrest.1 hflag henv, hrecipe]⟩
    | _ => trivial
  error h e he := by
    have := call_error_unchanged hrest (fun hcreates => hback (Or.inr hcreates)) he
    simp [h, this]
  read h hread := by simp [h, call_read_db hread]

/-- The invariant: what is left of each request spares. -/
structure Sparing (s : Serving) : Prop where
  tracked : Tracked s
  rests : Rests Store.Valid s.executor.service
  tasks : ∀ i x task, s.exchanges[i]? = some x → Remaining s i x task → task.Spares x.changed

theorem effect_spares (hglaze : router.glaze.WritesAll) {event : ServingEvent} {i : Nat}
    {x' : Exchange} {task : Task} (hs : Sparing s) (hcondition : s.ReadsSucceed event)
    (h : Effect router s event i x' task) :
    task.Spares x'.changed := by
  cases h with
  | @same x _ hx hremaining hx' =>
      rw [hx']
      exact hs.tasks i x task hx hremaining
  | arrived _ _ hx' =>
      rw [hx']
      exact Router.handleAsync_spares hglaze
  | @rejected x operation resume error hevent hx hp hadmits hx' =>
      have hspares := hs.tasks i x _ hx (.running hp)
      have hunchanged : x.changed = false := by
        obtain ⟨request, progress, earlier, changed, left⟩ := x
        obtain rfl : progress = _ := hp
        rw [hevent] at hcondition
        cases changed with
        | false => rfl
        | true => exact absurd (hcondition (by simp [submitsAfterChange, hx])) hadmits
      rw [hx']
      rw [hunchanged] at hspares
      refine hspares _ _ ⟨by simp, by simp, fun _ _ _ => hunchanged, fun _ _ => hunchanged⟩
  | @executed x job environment hevent hworker hi hx hremaining hx' =>
      rw [hevent] at hcondition
      have hcondition := hcondition job (by simp [hworker, Worker.job])
      simp only [hi, hx, Option.any_some] at hcondition
      rw [hx']
      exact hs.tasks i x _ hx hremaining _ _ (call_possible hs.rests hcondition)

/-- **An error response means no effect**, in every run whose steps make no read fail that follows
a change of the same request: whatever the interleaving and however full the queue, a request that
was answered with a 4xx or 5xx status has changed no table. -/
theorem error_response_without_effect (hglaze : router.glaze.WritesAll)
    (h : ((runs router).restrict ReadsSucceed).Reachable s) :
    ∀ x ∈ s.exchanges, ∀ response, x.progress = .answered response → response.status.failed →
      x.changed = false := by
  have hs : Sparing s := by
    refine h.invariant (I := Sparing) ?_ ?_
    · rintro s ⟨m, queueCapacity, hm, hpos, rfl⟩
      exact ⟨tracked_start, ⟨(rests_valid hm).1, rfl⟩, by simp⟩
    · rintro s event s' hs ⟨hcondition, hstep⟩
      refine ⟨hs.tracked.step (step_of_next hstep), ?_, fun i x t hx hremaining =>
        effect_spares hglaze hs hcondition (step_effect hs.tracked hstep hx hremaining)⟩
      rcases service_of_step hstep with hservice | ⟨_, _, _, _, hservice⟩
      · rw [hservice]
        exact hs.rests
      · rw [hservice]
        exact call_rests hs.rests
  intro x hx response hp hfailed
  obtain ⟨i, hi⟩ := List.getElem?_of_mem hx
  exact hs.tasks i x _ hi (.answered hp) hfailed

/-! ## The kitchen's server -/

/-- Two requests of a client of the kitchen. -/
def lessMilk : ProductRequest := { name := "milk", amount := 250, dimension := "ml" }

def kitchenRouter : Router := { glaze := Glaze.plain [lessMilk] [] }

def putProduct (target : String) (product : ProductRequest) : Request :=
  { method := .put, target, contentType := "application/json", body := product.json }

/-- While the update runs, another request takes the only place in the queue; the read-back of the
`PUT` finds the queue full. -/
def crowdedPut : List ServingEvent :=
  [.arrive (putProduct "/v1/products/1" lessMilk), .advance 0, .wake,
    .arrive { method := .get, target := "/v1/products" }, .operate [], .advance 1,
    .deliver 0, .advance 0, .deliver 0, .advance 0]

/-- The `PUT` is answered with 503, and the milk was updated. -/
theorem put_overloaded_after_update :
    (runs kitchenRouter).Reachable (System.play (next kitchenRouter) (opened 1) crowdedPut) ∧
      ((System.play (next kitchenRouter) (opened 1) crowdedPut).exchanges[0]?.map fun x =>
        (x.request.method, x.progress.status, x.changed)) =
          some (.put, some .serviceUnavailable, true) :=
  ⟨reachable_opened Nat.one_pos crowdedPut, by decide +kernel⟩

/-- A `PUT` of a product that is there, and one of a product that is not. -/
def calmPuts : List ServingEvent :=
  [.arrive (putProduct "/v1/products/1" lessMilk), .advance 0, .wake,
    .arrive (putProduct "/v1/products/7" lessMilk), .advance 1, .operate [], .wake,
    .deliver 0, .advance 0, .operate [], .deliver 0, .advance 1, .wake, .operate [], .deliver 0,
    .advance 0]

/-- The server after `calmPuts`, each step taken only if it meets the condition. -/
def servedPuts : Serving :=
  System.play (fun s event => if s.ReadsSucceed event then s.next kitchenRouter event else none)
    (opened 1) calmPuts

theorem error_response_without_effect_kitchen :
    (∀ x ∈ servedPuts.exchanges, ∀ response, x.progress = .answered response →
      response.status.failed → x.changed = false) ∧
    (servedPuts.exchanges.map fun x => (x.progress.status, x.changed)) =
      [(some .ok, true), (some .notFound, false)] :=
  ⟨error_response_without_effect (Glaze.plain_writesAll _ _)
      (System.Reachable.play_restrict (S := runs kitchenRouter) (fun _ _ _ h => h)
        (opened_init Nat.one_pos) calmPuts),
    by decide +kernel⟩

end Serving

end RecipesCore.Net
