import RecipesCore.App.StorageLayer
import RecipesCore.Server.Alone

/-!
# Storage errors and the client

Two runs of `HandleAsync` over two database layers that do the same but for what they throw. What a
submission meets is a `Visit`: the executor turns it away, or other work goes first. No handler
tells storage errors apart, so the responses are equal.
-/

namespace RecipesCore.Net

open RecipesCore.Api
open RecipesCore.App
open RecipesCore.Db
open RecipesCore.Logic
open RecipesCore.Types

/-! ## Requests over a layer -/

inductive Visit (layer : StorageLayer) where
  /-- The queue is full, or the executor is stopping. -/
  | rejected (error : App.Error)
  /-- What becomes of the layer until the operation runs. -/
  | executed (before : layer.State → layer.State)

/-- A coroutine run to its end, its submissions meeting `visits` in turn. -/
def Task.over (layer : StorageLayer) :
    Task → (Nat → Visit layer) → layer.State → Response × layer.State
  | .done response, _, s => (response, s)
  | .submit operation resume, visits, s =>
      match visits 0 with
      | .rejected error => (resume (.error error)).over layer (fun n => visits (n + 1)) s
      | .executed before =>
          let (result, s') := layer.call operation (before s)
          (resume result).over layer (fun n => visits (n + 1)) s'

/-- A request among the reads of others is a request over the program's layer. -/
theorem amid_eq_over (task : Task) (turns : List Turn) (m : DBManager) :
    task.amid turns m = task.over sqliteLayer (fun n => .executed fun m =>
      (afterReads (turns.getD n {}).reads m).withEnvironment (turns.getD n {}).environment) m := by
  induction task generalizing turns m with
  | done response => rfl
  | submit operation resume ih =>
      have htail : ∀ n, turns.getD (n + 1) {} = turns.tail.getD n {} := by
        intro n
        cases turns <;> simp
      have hhead : turns.getD 0 {} = turns.headD {} := by cases turns <;> rfl
      simp only [Task.amid, Task.over, sqliteLayer_call, htail, hhead]
      exact ih _ _ _

/-! ## Two runs -/

/-- The same is done to layers whose states are in `R`. -/
def SameVisit {layer layer' : StorageLayer} (R : layer.State → layer'.State → Prop) :
    Visit layer → Visit layer' → Prop
  | .rejected error, .rejected error' => error = error'
  | .executed before, .executed before' => ∀ s t, R s t → R (before s) (before' t)
  | _, _ => False

/-- The coroutine goes on alike whatever a storage error says. -/
def Task.Discreet : Task → Prop
  | .done _ => True
  | .submit _ resume =>
      (∀ result result', SameUnlessStorage result result' → resume result = resume result') ∧
        ∀ result, (resume result).Discreet

/-- A discreet coroutine answers alike over similar layers. -/
theorem Task.Discreet.over {layer layer' : StorageLayer} {R : layer.State → layer'.State → Prop}
    (hlayers : StorageLayer.Similar layer layer' R) {task : Task} (h : task.Discreet)
    {visits : Nat → Visit layer} {visits' : Nat → Visit layer'}
    (hvisits : ∀ n, SameVisit R (visits n) (visits' n)) {s : layer.State} {t : layer'.State}
    (hR : R s t) : (task.over layer visits s).1 = (task.over layer' visits' t).1 := by
  induction task generalizing visits visits' s t with
  | done response => rfl
  | submit operation resume ih =>
      obtain ⟨hsame, hresume⟩ := h
      have hvisit := hvisits 0
      rw [Task.over, Task.over]
      cases hv : visits 0 with
      | rejected error =>
          cases hv' : visits' 0 with
          | executed before' => simp [hv, hv', SameVisit] at hvisit
          | rejected error' =>
              rw [hv, hv'] at hvisit
              obtain rfl : error = error' := hvisit
              exact ih _ (hresume _) (fun n => hvisits (n + 1)) hR
      | executed before =>
          cases hv' : visits' 0 with
          | rejected error' => simp [hv, hv', SameVisit] at hvisit
          | executed before' =>
              rw [hv, hv'] at hvisit
              obtain ⟨hresult, hR'⟩ := StorageLayer.call_same hlayers operation (hvisit s t hR)
              have hnext := hsame _ _ hresult
              simp only [hnext]
              exact ih _ (hresume _) (fun n => hvisits (n + 1)) hR'

/-! ## The handlers -/

namespace Router

variable {router : Router} {request : Request}

/-- The text of a storage error is replaced. -/
theorem makeAppErrorResponse_storage {error error' : App.Error} (h : error.code = .storage)
    (h' : error'.code = .storage) :
    router.makeAppErrorResponse error request = router.makeAppErrorResponse error' request := by
  simp only [makeAppErrorResponse, h, h', if_true]

/-- A submission whose result is an application error or goes on. -/
theorem submit_discreet {operation : ServiceOperation} {k : operation.Result → Task}
    (hk : ∀ a, (k a).Discreet) :
    (Task.submit operation (router.orAppError request k)).Discreet := by
  constructor
  · intro result result' hsame
    cases result with
    | error error =>
        cases result' with
        | ok a => exact hsame.elim
        | error error' =>
            rcases hsame with rfl | ⟨hcode, hcode'⟩
            · rfl
            · rw [orAppError, orAppError, makeAppErrorResponse_storage hcode hcode']
    | ok a =>
        cases result' with
        | error error' => exact hsame.elim
        | ok a' =>
            obtain rfl : a = a' := hsame
            rfl
  · intro result
    cases result with
    | error error => exact trivial
    | ok a => exact hk a

/-- A body is parsed before anything is stored. -/
theorem withBody_discreet {α : Type} {parse : String → Except (Status × String) α} {k : α → Task}
    (hk : ∀ a, (k a).Discreet) : (router.withBody request parse k).Discreet := by
  unfold withBody
  split
  · split
    · exact trivial
    · exact hk _
  · exact trivial

theorem found_discreet {α : Type} {missing what : String} {serialize : α → Except String String}
    (result : Option α) : (router.found request missing what serialize result).Discreet := by
  cases result <;> exact trivial

theorem getProduct_discreet (productId : Int) : (router.getProduct request productId).Discreet :=
  submit_discreet found_discreet

theorem getRecipe_discreet (recipeId : Int) : (router.getRecipe request recipeId).Discreet :=
  submit_discreet found_discreet

theorem handleProducts_discreet (productId : Option Int) :
    (router.handleProducts request productId).Discreet := by
  unfold handleProducts
  split
  · split
    · exact withBody_discreet fun _ => submit_discreet fun _ => trivial
    · exact withBody_discreet fun _ => submit_discreet fun _ => getProduct_discreet _
    · exact submit_discreet fun _ => trivial
    · exact getProduct_discreet _
    · exact submit_discreet fun _ => trivial
    · exact trivial
  · exact trivial

theorem handleRecipes_discreet (cookable : Bool) :
    (router.handleRecipes request cookable).Discreet := by
  unfold handleRecipes
  split
  · split
    · exact submit_discreet fun _ => trivial
    · exact submit_discreet fun _ => trivial
  · exact trivial

theorem handleRecipeItem_discreet (recipeId : Int) :
    (router.handleRecipeItem request recipeId).Discreet := by
  unfold handleRecipeItem
  split
  · split
    · exact getRecipe_discreet _
    · exact withBody_discreet fun _ => submit_discreet fun _ => getRecipe_discreet _
    · exact submit_discreet fun _ => trivial
    · exact trivial
  · exact trivial

/-- **No handler of the router is indiscreet.** -/
theorem handleAsync_discreet : (router.handleAsync request).Discreet := by
  unfold handleAsync
  dsimp only
  split
  · exact handleProducts_discreet _
  · split
    · split
      · split
        · exact withBody_discreet fun _ => submit_discreet fun _ => trivial
        · split
          · exact handleRecipes_discreet _
          · exact trivial
      · exact trivial
    · split
      · exact handleRecipeItem_discreet _
      · exact trivial

/-- **Storage error details never reach a client**: whatever the layers throw, and of whatever type,
the responses of two runs that are alike otherwise are equal. -/
theorem exceptions_stay_inside (router : Router) (request : Request)
    (layer layer' : StorageLayer) (R : layer.State → layer'.State → Prop)
    (hlayers : StorageLayer.Similar layer layer' R)
    (visits : Nat → Visit layer) (visits' : Nat → Visit layer')
    (hvisits : ∀ n, SameVisit R (visits n) (visits' n)) (s : layer.State) (t : layer'.State)
    (hR : R s t) :
    ((router.handleAsync request).over layer visits s).1 =
      ((router.handleAsync request).over layer' visits' t).1 :=
  handleAsync_discreet.over hlayers hvisits hR

/-- The program's layer, if nothing it throws were a `std::exception`. -/
def foreignLayer : StorageLayer := { sqliteLayer with what := fun _ => none }

/-- SQLite fails in the first step of each submission. -/
def failing (what : String) (m : DBManager) : DBManager :=
  m.withEnvironment [.fail ⟨.other 10, what⟩]

/-- Two managers stay the same but for the text of one failure. -/
theorem failing_same {what what' : String} {m m' : DBManager} (h : SameButTexts m m') :
    SameButTexts (failing what m) (failing what' m') :=
  ⟨h.db, h.saved, h.bindings, h.failures, rfl⟩

def listRecipes : Task :=
  handleAsync { glaze := Glaze.plain [] [] } { method := .get, target := "/v1/recipes" }

theorem exceptions_stay_inside_twice :
    (listRecipes.over sqliteLayer (fun _ => .executed (failing "disk I/O error")) {}).1 =
      (listRecipes.over foreignLayer (fun _ => .executed (failing "recipes.db is locked")) {}).1 ∧
    (listRecipes.over sqliteLayer (fun _ => .executed (failing "disk I/O error")) {}).1.status =
      .internalServerError :=
  ⟨exceptions_stay_inside _ _ sqliteLayer foreignLayer SameButTexts perform_similar
      (fun _ => .executed (failing "disk I/O error"))
      (fun _ => .executed (failing "recipes.db is locked")) (fun _ _ _ h => failing_same h)
      _ _ ⟨rfl, rfl, fun _ => rfl, fun _ => rfl, rfl⟩,
    by decide +kernel⟩

end Router

end RecipesCore.Net
