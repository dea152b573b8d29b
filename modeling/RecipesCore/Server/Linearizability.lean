import RecipesCore.App.Replay
import RecipesCore.Logic.Linearization
import RecipesCore.Server.ErrorResponses
import RecipesCore.Server.RoundTrip
import RecipesCore.Server.Routing

/-!
# One order of the requests

When the executor accepts every submission, the requests look as if they had come one after another:
a request takes its place in that order when its first operation runs, and one that submits nothing
when it comes in. A `PUT` spoils this. It reads its object back in a second submission, and another
request may have changed the object by then. `ReadsOwn` says of a step that it reads no such object.

`Task.Leads` carries the argument along a coroutine: whatever becomes of what is left, a 2xx
response at the end is the one that the request gets alone.
-/

namespace RecipesCore.Net

open RecipesCore.Api
open RecipesCore.App RecipesCore.App.DatabaseExecutor
open RecipesCore.Db
open RecipesCore.Logic
open RecipesCore.Types

/-! ## The order -/

namespace Router

variable (router : Router)

/-- The request, while nothing else runs. -/
def RunsAlone (m : DBManager) (request : Request) (response : Response) (m' : DBManager) : Prop :=
  ∃ environments, (router.handleAsync request).alone environments m = (response, m')

/-- The 200 with the object that the target names, as it stands in the tables. -/
def shown (request : Request) (tables : Tables) : Option Response :=
  match parseProductId request.target, parseRecipeId request.target with
  | some productId, _ => (findProduct tables productId).map fun product =>
      router.serialized .ok request "product"
        (router.glaze.serializeProduct (toProductResponse product))
  | none, some recipeId => (findRecipe (storedRecipes tables) recipeId).map fun recipe =>
      router.serialized .ok request "recipe"
        (router.glaze.serializeRecipe (toRecipeResponse recipe))
  | none, none => none

end Router

def Progress.response : Progress → Option Response
  | .answered response => some response
  | _ => none

theorem Progress.response_eq_some {progress : Progress} {response : Response} :
    progress.response = some response ↔ progress = .answered response := by
  cases progress <;> simp [Progress.response]

def Exchange.invocation (x : Exchange) : Invocation Request Response :=
  { request := x.request, earlier := x.earlier, answer := x.progress.response }

namespace Serving

def history (s : Serving) : List (Invocation Request Response) :=
  s.exchanges.map Exchange.invocation

/-- Each `PUT` answered 2xx was answered with the object as its own operation left it. -/
def ReturnsOwn (router : Router) (s : Serving) : Prop :=
  ∀ x ∈ s.exchanges, ∀ response, x.request.method = .put → x.progress = .answered response →
    response.status.succeeded →
      ∃ tables, x.left = some tables ∧ router.shown x.request tables = some response

/-- The next thing the request does is to submit. -/
def submits (s : Serving) (i : Nat) : Bool :=
  match s.exchanges[i]? with
  | some ⟨_, .running (.submit _ _), _, _, _⟩ => true
  | _ => false

/-- A submission made in this step is accepted. -/
def Accepts (s : Serving) : ServingEvent → Prop
  | .advance i => s.submits i = true → s.executor.Admits
  | .arrive _ | .wake | .operate _ | .deliver _ | .stop => True

instance (s : Serving) : (event : ServingEvent) → Decidable (s.Accepts event)
  | .advance _ => inferInstanceAs (Decidable (_ → _))
  | .arrive _ | .wake | .operate _ | .deliver _ | .stop => isTrue trivial

/-- The executions from `start` where every submission is accepted. -/
def acceptedRuns (router : Router) (start : Serving) : System Serving ServingEvent :=
  ((runs router).startingAt start).restrict Accepts

end Serving

/-! ## The condition -/

/-- What the operation looks for is as it was before, or gone. -/
def FindsSame (before now : Tables) : ServiceOperation → Prop
  | .getProduct productId =>
      findProduct now productId = none ∨ findProduct now productId = findProduct before productId
  | .getRecipe recipeId =>
      findRecipe (storedRecipes now) recipeId = none ∨
        findRecipe (storedRecipes now) recipeId = findRecipe (storedRecipes before) recipeId
  | _ => True

instance (before now : Tables) : (operation : ServiceOperation) →
    Decidable (FindsSame before now operation)
  | .getProduct _ | .getRecipe _ => inferInstanceAs (Decidable (_ ∨ _))
  | .getProducts | .getRecipes | .getCookableRecipes | .createProduct _ | .createRecipe _
  | .updateProduct _ _ | .updateRecipe _ _ | .deleteProduct _ | .deleteRecipe _ => isTrue trivial

/-- The worker reads no object back that was changed since the first operation of the request,
unless it is gone. -/
def Serving.ReadsOwn (s : Serving) : ServingEvent → Prop
  | .operate _ => ∀ job ∈ s.executor.worker.job,
      ∀ before ∈ (s.exchanges[job.operation.request]?).bind Exchange.left,
        FindsSame before s.executor.service.db.tables job.operation.operation
  | .arrive _ | .advance _ | .wake | .deliver _ | .stop => True

instance (s : Serving) : (event : ServingEvent) → Decidable (s.ReadsOwn event)
  | .operate _ => List.decidableBAll _ _
  | .arrive _ | .advance _ | .wake | .deliver _ | .stop => isTrue trivial

/-! ## Handlers -/

/-- The read at the end of a request, and the response to what it finds. -/
structure Lookup (router : Router) (request : Request) where
  operation : ServiceOperation
  answer : Tables → operation.Result
  respond : operation.Result → Response
  reads : ReadsOff operation answer
  same : ∀ {before now}, FindsSame before now operation →
    (respond (answer now)).status.succeeded → answer now = answer before

def Lookup.task {router : Router} {request : Request} (lookup : Lookup router request) : Task :=
  .submit lookup.operation (router.orAppError request fun a => .done (lookup.respond a))

namespace Router

variable {router : Router} {request : Request} {task : Task}

def foundResponse {α : Type} (router : Router) (request : Request) (missing what : String)
    (serialize : α → Except String String) : Option α → Response
  | none => router.makeErrorResponse .notFound request "not_found" missing
  | some a => router.serialized .ok request what (serialize a)

theorem found_eq {α : Type} {missing what : String} {serialize : α → Except String String} :
    router.found request missing what serialize =
      fun found => .done (router.foundResponse request missing what serialize found) := by
  funext found
  cases found <;> rfl

theorem found_of_succeeded {α : Type} {missing what : String} {serialize : α → Except String String}
    {found : Option α}
    (h : (router.foundResponse request missing what serialize found).status.succeeded) :
    found ≠ none := by
  rintro rfl
  exact absurd h (by decide : ¬ Status.notFound.succeeded)

def productLookup (router : Router) (request : Request) (productId : Int) :
    Lookup router request where
  operation := .getProduct productId
  answer tables := findProduct tables productId
  respond := router.foundResponse request "Product was not found" "product" fun product =>
    router.glaze.serializeProduct (toProductResponse product)
  reads := readsOff_getProduct productId
  same hsame hsucceeded := hsame.resolve_left (found_of_succeeded hsucceeded)

def recipeLookup (router : Router) (request : Request) (recipeId : Int) :
    Lookup router request where
  operation := .getRecipe recipeId
  answer tables := findRecipe (storedRecipes tables) recipeId
  respond := router.foundResponse request "Recipe was not found" "recipe" fun recipe =>
    router.glaze.serializeRecipe (toRecipeResponse recipe)
  reads := readsOff_getRecipe recipeId
  same hsame hsucceeded := hsame.resolve_left (found_of_succeeded hsucceeded)

theorem getProduct_eq_lookup (productId : Int) :
    router.getProduct request productId = (router.productLookup request productId).task := by
  rw [getProduct, found_eq]
  rfl

theorem getRecipe_eq_lookup (recipeId : Int) :
    router.getRecipe request recipeId = (router.recipeLookup request recipeId).task := by
  rw [getRecipe, found_eq]
  rfl

/-- The lookup answers 200 with the object that the target names. -/
def Shows (lookup : Lookup router request) : Prop :=
  ∀ tables, (lookup.respond (lookup.answer tables)).status.succeeded →
    router.shown request tables = some (lookup.respond (lookup.answer tables))

theorem productLookup_shows {productId : Int} (h : parseProductId request.target = some productId) :
    Shows (router.productLookup request productId) := by
  intro tables hsucceeded
  obtain ⟨product, hfound⟩ := Option.ne_none_iff_exists'.mp (found_of_succeeded hsucceeded)
  have hfound : findProduct tables productId = some product := hfound
  simp only [shown, h, productLookup, hfound]
  rfl

theorem recipeLookup_shows {recipeId : Int} (h : parseRecipeId request.target = some recipeId) :
    Shows (router.recipeLookup request recipeId) := by
  intro tables hsucceeded
  obtain ⟨recipe, hfound⟩ := Option.ne_none_iff_exists'.mp (found_of_succeeded hsucceeded)
  have hfound : findRecipe (storedRecipes tables) recipeId = some recipe := hfound
  have hproduct : parseProductId request.target = none := by
    cases hid : parseProductId request.target with
    | none => rfl
    | some productId => cases (parseRecipeId_of_product hid).symm.trans h
  simp only [shown, h, hproduct, recipeLookup, hfound]
  rfl

/-- The handlers: one refuses, or submits once, or is a `PUT` that changes an object and looks it up
again. -/
inductive Handles (router : Router) (request : Request) : Task → Prop where
  | refused {response : Response} : (request.method = .put → response.status.failed) →
      Handles router request (.done response)
  | once (operation : ServiceOperation) (respond : operation.Result → Response) :
      request.method ≠ .put → Handles router request
        (.submit operation (router.orAppError request fun a => .done (respond a)))
  | change (operation : ServiceOperation) (lookup : Lookup router request) : Shows lookup →
      Handles router request (.submit operation (router.orAppError request fun _ => lookup.task))

theorem withBody_handles {α : Type} {parse : String → Except (Status × String) α} {k : α → Task}
    (hparse : ∀ status message, parse request.body = .error (status, message) → status.failed)
    (h : ∀ a, Handles router request (k a)) :
    Handles router request (router.withBody request parse k) := by
  unfold withBody
  split
  · split
    · next status message heq => exact .refused fun _ => hparse status message heq
    · next a _ => exact h a
  · exact .refused fun _ => (by decide : Status.unsupportedMediaType.failed)

/-- Nobody changes a stored object through `Handle`. -/
theorem handle_failed (h : request.method ≠ .get) : (router.handle request).status.failed := by
  unfold handle
  dsimp only
  split
  · exact (by decide : Status.methodNotAllowed.failed)
  · repeat' split
    all_goals first
      | exact (by decide : Status.methodNotAllowed.failed)
      | exact (by decide : Status.notFound.failed)

theorem handle_handles : Handles router request (.done (router.handle request)) := by
  refine .refused fun hput => handle_failed ?_
  rw [hput]
  decide

theorem unavailable_handles :
    Handles router request (.done (router.serviceUnavailable request)) :=
  .refused fun _ => (by decide : Status.serviceUnavailable.failed)

theorem parse_failed {status : Status} (h : status = .badRequest ∨ status = .unprocessableEntity) :
    status.failed := by
  rcases h with rfl | rfl <;> decide

theorem handleProducts_handles {productId : Option Int}
    (hid : productId = parseProductId request.target) :
    Handles router request (router.handleProducts request productId) := by
  unfold handleProducts
  split
  · split
    · next hmethod =>
        refine withBody_handles (fun _ _ h => parse_failed (parseProduct_error h)) fun product => ?_
        exact .once (.createProduct product) _ (by rw [hmethod]; decide)
    · refine withBody_handles (fun _ _ h => parse_failed (parseProduct_error h)) fun product => ?_
      rw [getProduct_eq_lookup]
      exact .change _ _ (productLookup_shows hid.symm)
    · next hmethod => exact .once (.deleteProduct _) _ (by rw [hmethod]; decide)
    · next hmethod =>
        rw [getProduct_eq_lookup]
        exact .once _ _ (by rw [hmethod]; decide)
    · next hmethod => exact .once .getProducts _ (by rw [hmethod]; decide)
    · exact handle_handles
  · exact unavailable_handles

theorem handleRecipes_handles {cookable : Bool} (hmethod : request.method = .get) :
    Handles router request (router.handleRecipes request cookable) := by
  have hput : request.method ≠ .put := by
    rw [hmethod]
    decide
  unfold handleRecipes
  split
  · split
    · exact .once .getCookableRecipes _ hput
    · exact .once .getRecipes _ hput
  · exact unavailable_handles

theorem handleRecipeItem_handles {recipeId : Int}
    (hid : parseRecipeId request.target = some recipeId) :
    Handles router request (router.handleRecipeItem request recipeId) := by
  unfold handleRecipeItem
  split
  · split
    · next hmethod =>
        rw [getRecipe_eq_lookup]
        exact .once _ _ (by rw [hmethod]; decide)
    · refine withBody_handles (fun _ _ h => parse_failed (parseRecipe_error h)) fun recipe => ?_
      rw [getRecipe_eq_lookup]
      exact .change _ _ (recipeLookup_shows hid)
    · next hmethod => exact .once (.deleteRecipe _) _ (by rw [hmethod]; decide)
    · exact handle_handles
  · exact unavailable_handles

/-- Every request is handled in one of the three ways. -/
theorem handleAsync_handles : Handles router request (router.handleAsync request) := by
  simp only [handleAsync]
  split
  · exact handleProducts_handles rfl
  · split
    · split
      · split
        · next hpost =>
            refine withBody_handles (fun _ _ h => parse_failed (parseRecipe_error h)) ?_
            intro recipe
            exact .once (.createRecipe recipe) _ (by rw [hpost.2]; decide)
        · split
          · next hmethod => exact handleRecipes_handles hmethod
          · exact handle_handles
      · exact unavailable_handles
    · split
      · next recipeId hid => exact handleRecipeItem_handles hid
      · exact handle_handles

end Router

/-! ## What is left after the first operation -/

/-- However what is left ends, a 2xx response is `response`. At most one read is left, which finds
its object as it is in the tables `left` by the first operation. -/
def Task.Leads (left : Option Tables) (response : Response) : Task → Prop
  | .done last => last.status.succeeded → last = response
  | .submit operation resume => ∃ before ∈ left, ∀ environment m,
      (∀ s, Mirrors m s → Mirrors (operation.call environment m).2 s) ∧
      (Store.Valid m.db.tables m.db.sequences → FindsSame before m.db.tables operation →
        ∃ last, resume (operation.call environment m).1 = .done last ∧
          (last.status.succeeded → last = response))

/-- Alone, a request submits its operations one after another. -/
theorem Task.alone_submit {operation : ServiceOperation} {resume : Expected operation.Result → Task}
    {environment : List StepOutcome} {environments : List (List StepOutcome)} {m : DBManager} :
    (Task.submit operation resume).alone (environment :: environments) m =
      (resume (operation.call environment m).1).alone environments
        (operation.call environment m).2 := rfl

namespace Router

variable {router : Router} {request : Request} {m s : DBManager}

theorem appError_not_succeeded {error : App.Error} :
    ¬ (router.makeAppErrorResponse error request).status.succeeded := by
  rw [Status.succeeded_iff, not_not]
  exact makeAppErrorResponse_failed error

theorem Lookup.leads (lookup : Lookup router request) (before : Tables) :
    lookup.task.Leads (some before) (lookup.respond (lookup.answer before)) := by
  refine ⟨before, rfl, fun environment m => ⟨fun s hs => lookup.reads.keeps hs, fun hv hsame => ?_⟩⟩
  cases hcall : (lookup.operation.call environment m).1 with
  | error error => exact ⟨_, rfl, fun h => absurd h appError_not_succeeded⟩
  | ok a =>
      obtain rfl := lookup.reads.exact hv hcall
      exact ⟨_, rfl, fun h => by rw [lookup.same hsame h]⟩

/-- On a mirror a lookup is answered with what the tables hold. -/
theorem Lookup.alone (lookup : Lookup router request) (hv : Store.Valid m.db.tables m.db.sequences)
    (hs : Mirrors m s) : ∃ s', lookup.task.alone [[]] s =
      (lookup.respond (lookup.answer m.db.tables), s') ∧ Mirrors m s' := by
  refine ⟨(lookup.operation.call [] s).2, ?_, ?_⟩
  · rw [Lookup.task, Task.alone_submit, lookup.reads.returns hv hs]
    rfl
  · exact lookup.reads.rests hs

/-- The request alone, from the mirror `s` on, gets a response that what is left of it after its
first operation on `m` leads to, and ends in a mirror of what that operation left. -/
def Agrees (router : Router) (request : Request) (operation : ServiceOperation)
    (resume : Expected operation.Result → Task) (environment : List StepOutcome) (m s : DBManager) :
    Prop :=
  ∃ environments response s',
    (Task.submit operation resume).alone environments s = (response, s') ∧
    Mirrors (operation.call environment m).2 s' ∧
    (resume (operation.call environment m).1).Leads
      (some (operation.call environment m).2.db.tables) response ∧
    (request.method = .put → response.status.succeeded →
      router.shown request (operation.call environment m).2.db.tables = some response)

section

variable {operation : ServiceOperation} {environment environment' : List StepOutcome}

theorem error_leads {k : operation.Result → Task} {error : App.Error} {left : Option Tables}
    {response : Response} : (router.orAppError request k (.error error)).Leads left response :=
  fun hsucceeded => absurd hsucceeded appError_not_succeeded

/-- Alone, the request is answered with an error; then it is so among the others. -/
theorem error_agrees {k : operation.Result → Task} {error : App.Error}
    (hmirrors : Mirrors (operation.call environment m).2 (operation.call environment' s).2)
    (hvalue : ∀ a, (operation.call environment m).1 = .ok a →
      (operation.call environment' s).1 = .ok a)
    (herror : (operation.call environment' s).1 = .error error) :
    Agrees router request operation (router.orAppError request k) environment m s := by
  refine ⟨[environment'], router.makeAppErrorResponse error request, _, ?_, hmirrors, ?_,
    fun _ hsucceeded => absurd hsucceeded appError_not_succeeded⟩
  · rw [Task.alone_submit, herror]
    rfl
  · cases hcall : (operation.call environment m).1 with
    | error error' => exact error_leads
    | ok a => cases (hvalue a hcall).symm.trans herror

/-- **The first operation of a request.** -/
theorem Handles.first {resume : Expected operation.Result → Task}
    (h : Handles router request (.submit operation resume)) (hrest : Rests Store.Valid m)
    (hs : Mirrors m s) : Agrees router request operation resume environment m s := by
  obtain ⟨environment', hmirrors, hvalue⟩ : Followed operation environment m s :=
    call_followed hrest.1 hs
  cases hcall' : (operation.call environment' s).1 with
  | error error =>
      cases h with
      | once => exact error_agrees hmirrors hvalue hcall'
      | change => exact error_agrees hmirrors hvalue hcall'
  | ok a =>
      cases h with
      | once _ respond hmethod =>
          refine ⟨[environment'], respond a, _, ?_, hmirrors, ?_, fun hput => absurd hput hmethod⟩
          · rw [Task.alone_submit, hcall']
            rfl
          · cases hcall : (operation.call environment m).1 with
            | error error => exact error_leads
            | ok b =>
                obtain rfl := Except.ok.inj ((hvalue b hcall).symm.trans hcall')
                exact fun _ => rfl
      | change _ lookup hshows =>
          -- nobody comes between the change and the read-back
          have hv : Store.Valid (operation.call environment m).2.db.tables _ := (call_rests hrest).1
          obtain ⟨s', hs', hmirrors'⟩ := Lookup.alone lookup hv hmirrors
          refine ⟨[environment', []], _, s', ?_, hmirrors', ?_, fun _ => hshows _⟩
          · rw [Task.alone_submit, hcall']
            exact hs'
          · cases (operation.call environment m).1 with
            | error error => exact error_leads
            | ok b => exact Lookup.leads lookup _

end

end Router

/-! ## Runs -/

namespace Serving

variable {router : Router} {start : DBManager} {s s' : Serving} {event : ServingEvent} {i : Nat}
  {x x' : Exchange} {task : Task} {entries : List (Entry Request Response)} {m m' : DBManager}

theorem history_getElem? (h : s.exchanges[i]? = some x) : s.history[i]? = some x.invocation := by
  simp only [history, List.getElem?_map, h, Option.map_some]

theorem exchange_of_history {y : Invocation Request Response} (h : s.history[i]? = some y) :
    ∃ x, s.exchanges[i]? = some x ∧ x.invocation = y := by
  rw [history, List.getElem?_map] at h
  exact Option.map_eq_some_iff.mp h

theorem grows_modifyExchange {t : Serving} (ht : t.exchanges = s.exchanges) {j : Nat}
    {f : Exchange → Exchange} (hf : ∀ x, (f x).request = x.request ∧ (f x).earlier = x.earlier) :
    Grows s.history (t.modifyExchange j f).history := by
  intro i y hy
  obtain ⟨x, hx, rfl⟩ := exchange_of_history hy
  have hx' : (t.modifyExchange j f).exchanges[i]? = some (if j = i then f x else x) := by
    rw [modifyExchange, List.getElem?_modify, ht, hx]
    split <;> rfl
  refine ⟨_, history_getElem? hx', ?_⟩
  split
  · exact hf x
  · exact ⟨rfl, rfl⟩

/-- A step forgets no request. -/
theorem step_grows (h : Step router s event s') : Grows s.history s'.history := by
  cases h with
  | arrive request =>
      intro i y hy
      refine ⟨y, ?_, rfl, rfl⟩
      have hlt := (List.getElem?_eq_some_iff.mp hy).1
      show (List.map _ (s.exchanges ++ _))[i]? = some y
      rw [List.map_append]
      exact (List.getElem?_append_left hlt).trans hy
  | worker => exact fun i y hy => ⟨y, hy, rfl, rfl⟩
  | answer | accept | reject | operate | deliver =>
      exact grows_modifyExchange rfl fun _ => ⟨rfl, rfl⟩

/-- A request is answered when nothing is left of it but its response. -/
theorem step_answered (h : Step router s event s') (hi : i ∈ s'.answered) :
    i ∈ s.answered ∨ ∃ x response, s.exchanges[i]? = some x ∧
      x.progress = .running (.done response) := by
  cases h with
  | @answer j x response hx hp =>
      rcases List.mem_append.mp hi with hi | hi
      · exact Or.inl hi
      · obtain rfl := List.mem_singleton.mp hi
        exact Or.inr ⟨x, response, hx, hp⟩
  | _ => exact Or.inl hi

/-- Where a request stands: before its linearization point or after it. -/
inductive Standing (router : Router) (entries : List (Entry Request Response)) (i : Nat)
    (x : Exchange) : Task → Prop where
  | before {operation : ServiceOperation} {resume : Expected operation.Result → Task} :
      ¬ Listed entries i → (∀ j ∈ x.earlier, Listed entries j) → x.left = none →
      router.handleAsync x.request = .submit operation resume →
      Standing router entries i x (.submit operation resume)
  | after {task : Task} {e : Entry Request Response} : e ∈ entries → e.invocation = i →
      task.Leads x.left e.answer →
      (x.request.method = .put → e.answer.status.succeeded →
        ∃ tables, x.left = some tables ∧ router.shown x.request tables = some e.answer) →
      Standing router entries i x task

theorem Standing.to (h : Standing router entries i x task) (hx' : x' = x.to x'.progress) :
    Standing router entries i x' task := by
  rw [hx']
  cases h with
  | before hnew hearlier hleft htask => exact .before hnew hearlier hleft htask
  | after he hi hleads hshown => exact .after he hi hleads hshown

theorem Standing.append (h : Standing router entries i x task) {e : Entry Request Response}
    (hne : e.invocation ≠ i) : Standing router (entries ++ [e]) i x task := by
  cases h with
  | before hnew hearlier hleft htask =>
      refine .before (fun hlisted => ?_) (fun j hj => (hearlier j hj).append) hleft htask
      exact (listed_append.mp hlisted).elim hnew hne
  | after he hi hleads hshown => exact .after (List.mem_append_left _ he) hi hleads hshown

/-- The invariant: the manager mirrors one that ran the listed requests alone. -/
structure Ordered (router : Router) (start : DBManager) (s : Serving)
    (entries : List (Entry Request Response)) (m : DBManager) : Prop where
  tracked : Tracked s
  rests : Rests Store.Valid s.executor.service
  mirrors : Mirrors s.executor.service m
  order : Linearizes router.RunsAlone start s.history entries m
  answered : ∀ i ∈ s.answered, Listed entries i
  tasks : ∀ i x task, s.exchanges[i]? = some x → Remaining s i x task →
    Standing router entries i x task

/-- What is left of an answered request is its response, so it is listed. -/
theorem Ordered.listed_of_done (h : Ordered router start s entries m) {response : Response}
    (hx : s.exchanges[i]? = some x) (hremaining : Remaining s i x (.done response)) :
    ∃ e ∈ entries, e.invocation = i ∧ (response.status.succeeded → response = e.answer) ∧
      (x.request.method = .put → e.answer.status.succeeded →
        ∃ tables, x.left = some tables ∧ router.shown x.request tables = some e.answer) := by
  cases h.tasks i x _ hx hremaining with
  | after he hi hleads hshown => exact ⟨_, he, hi, hleads, hshown⟩

/-- The order after a step, if everybody stands right in it. -/
theorem Ordered.of_standing (h : Ordered router start s entries m)
    (hstep : s.next router event = some s') {entries' : List (Entry Request Response)}
    (horder : Linearizes router.RunsAlone start s'.history entries' m')
    (hmirrors : Mirrors s'.executor.service m')
    (hlisted : ∀ j, Listed entries j → Listed entries' j)
    (hstanding : ∀ i x' task, s'.exchanges[i]? = some x' → Effect router s event i x' task →
      Standing router entries' i x' task) : Ordered router start s' entries' m' := by
  refine ⟨h.tracked.step (step_of_next hstep), ?_, hmirrors, horder, fun i hi => hlisted i ?_, ?_⟩
  · rcases service_of_step hstep with hservice | ⟨_, _, _, _, hservice⟩
    · rw [hservice]
      exact h.rests
    · rw [hservice]
      exact call_rests h.rests
  · rcases step_answered (step_of_next hstep) hi with hi | ⟨x, response, hx, hp⟩
    · exact h.answered i hi
    · obtain ⟨e, he, hei, -⟩ := h.listed_of_done hx (.running hp)
      exact ⟨e, he, hei⟩
  · intro i x' task hx' hremaining
    exact hstanding i x' task hx' (step_effect h.tracked hstep hx' hremaining)

/-- The first operation of a request leaves its tables, a later one none. -/
theorem ran_left {before after : Tables} (h : x.left = none) :
    (x.ran before after).left = some after := by
  simp [Exchange.ran, h]

theorem ran_left_of_some {before after left : Tables} (h : x.left = some left) :
    (x.ran before after).left = some left := by
  simp [Exchange.ran, h]

/-- Where what is left comes from when a request has arrived. -/
theorem effect_of_arrive {request : Request}
    (heffect : Effect router s (.arrive request) i x' task) :
    (∃ y, s.exchanges[i]? = some y ∧ Remaining s i y task ∧ x' = y.to x'.progress) ∨
      (i = s.exchanges.length ∧
        x' = { request, progress := .running (router.handleAsync request), earlier := s.answered } ∧
        task = router.handleAsync request) := by
  cases heffect with
  | same hy hremaining heq => exact Or.inl ⟨_, hy, hremaining, heq⟩
  | arrived hevent hi hx' =>
      obtain rfl := ServingEvent.arrive.inj hevent
      exact Or.inr ⟨hi, hx', rfl⟩
  | rejected _ hevent => cases hevent
  | executed hevent => cases hevent

/-- A new request that submits nothing takes its place at once; any other waits. -/
theorem Ordered.arrive (h : Ordered router start s entries m) {request : Request}
    (hstep : s.next router (.arrive request) = some s') :
    ∃ entries' m', Ordered router start s' entries' m' := by
  have hgrown := h.order.grow (step_grows (step_of_next hstep))
  obtain rfl := Option.some.inj hstep
  have hlt : ∀ {j}, Listed entries j → j < s.exchanges.length := fun hj => by
    simpa only [history, List.length_map] using h.order.lt_of_listed hj
  have hnew : ¬ Listed entries s.exchanges.length := fun hj => Nat.lt_irrefl _ (hlt hj)
  obtain ⟨first, hfirst⟩ : ∃ first, router.handleAsync request = first := ⟨_, rfl⟩
  cases first with
  | done response =>
      -- answered without the database: it takes effect where it arrives
      let e : Entry Request Response := ⟨s.exchanges.length, request, s.answered, response⟩
      let x : Exchange :=
        { request, progress := .running (router.handleAsync request), earlier := s.answered }
      have hrecorded : e.Recorded (history { s with exchanges := s.exchanges ++ [x] }) :=
        ⟨_, history_getElem? List.getElem?_concat_length, rfl, rfl⟩
      have halone : router.RunsAlone m e.request e.answer m := ⟨[], by rw [hfirst]; rfl⟩
      refine ⟨_, m, h.of_standing hstep (hgrown.put hrecorded hnew h.answered halone) h.mirrors
        (fun _ hj => hj.append) fun i x' task _ heffect => ?_⟩
      obtain ⟨y, hy, hremaining, heq⟩ | ⟨hi, hx', htask⟩ := effect_of_arrive heffect
      · refine ((h.tasks _ _ _ hy hremaining).append ?_).to heq
        exact (List.getElem?_eq_some_iff.mp hy).1.ne'
      · subst hx'
        have hhandles : Router.Handles router request (router.handleAsync request) :=
          Router.handleAsync_handles
        rw [hfirst] at hhandles
        rw [htask, hfirst]
        refine .after (List.mem_append_right _ (List.mem_singleton_self e)) hi.symm (fun _ => rfl)
          fun hput hsucceeded => ?_
        cases hhandles with
        | refused hfailed => exact absurd (hfailed hput) ((Status.succeeded_iff _).mp hsucceeded)
  | submit operation resume =>
      -- not yet in the order: its first operation decides
      refine ⟨entries, m, h.of_standing hstep hgrown h.mirrors (fun _ hj => hj)
        fun i x' task _ heffect => ?_⟩
      obtain ⟨y, hy, hremaining, heq⟩ | ⟨hi, hx', htask⟩ := effect_of_arrive heffect
      · exact (h.tasks _ _ _ hy hremaining).to heq
      · subst hx' hi
        rw [htask, hfirst]
        exact .before hnew h.answered rfl hfirst

/-- Where what is left comes from when the worker has run its job. -/
theorem effect_of_operate {environment : List StepOutcome} {job : Job Ticket}
    (heffect : Effect router s (.operate environment) i x' task)
    (hworker : s.executor.worker = .running job)
    (hx : s.exchanges[job.operation.request]? = some x) :
    (∃ y, s.exchanges[i]? = some y ∧ Remaining s i y task ∧ x' = y.to x'.progress) ∨
      (job.operation.request = i ∧
        x' = x.ran s.executor.service.db.tables
          (job.operation.operation.call environment s.executor.service).2.db.tables ∧
        task = job.operation.resume
          (job.operation.operation.call environment s.executor.service).1) := by
  cases heffect with
  | same hy hremaining heq => exact Or.inl ⟨_, hy, hremaining, heq⟩
  | arrived hevent => cases hevent
  | rejected _ hevent => cases hevent
  | executed hevent hworker' hi hy _ hran =>
      obtain rfl := ServingEvent.operate.inj hevent
      obtain rfl := Worker.running.inj (hworker.symm.trans hworker')
      obtain rfl := hi
      obtain rfl := Option.some.inj (hx.symm.trans hy)
      exact Or.inr ⟨rfl, hran, rfl⟩

/-- The operation of a request that waited for its place gives it the next one; a read-back leads
where it should. -/
theorem Ordered.operate (h : Ordered router start s entries m) {environment : List StepOutcome}
    (hown : s.ReadsOwn (.operate environment))
    (hstep : s.next router (.operate environment) = some s') :
    ∃ entries' m', Ordered router start s' entries' m' := by
  have hgrows := step_grows (step_of_next hstep)
  have hgrown := h.order.grow hgrows
  cases step_of_next hstep with
  | worker _ hevent => rcases hevent with hevent | hevent <;> cases hevent
  | operate job executor hworker hpending hservice =>
      have hjob : job ∈ s.executor.pending := by simp [hpending]
      obtain ⟨x, hx, hp⟩ := Option.map_eq_some_iff.mp (h.tracked.suspended _ (waiting_pending hjob))
      cases h.tasks _ x _ hx (.pending hp hjob rfl) with
      | before hnew hearlier hleft hfirst =>
          obtain ⟨environments, response, t, halone, hmirrors, hleads, hshown⟩ :
              router.Agrees x.request _ _ environment s.executor.service m :=
            (hfirst ▸ Router.handleAsync_handles).first h.rests h.mirrors
          let e : Entry Request Response := ⟨job.operation.request, x.request, x.earlier, response⟩
          have halone : router.RunsAlone m e.request e.answer t :=
            ⟨environments, by rw [hfirst]; exact halone⟩
          have hput := hgrown.put (e := e) (hgrows _ _ (history_getElem? hx)) hnew hearlier halone
          refine ⟨_, t, h.of_standing hstep hput (hservice ▸ hmirrors) (fun _ hj => hj.append)
            fun i x' task hx' heffect => ?_⟩
          obtain ⟨y, hy, hremaining, heq⟩ | ⟨hi, hran, htask⟩ := effect_of_operate heffect hworker hx
          · refine ((h.tasks _ _ _ hy hremaining).append fun hi => ?_).to heq
            -- the exchange whose operation ran is not the same as before
            obtain ⟨z, hz, hran⟩ := getElem?_modifyExchange hx'
            obtain rfl : job.operation.request = i := hi
            obtain rfl := Option.some.inj (hx.symm.trans hy)
            obtain rfl := Option.some.inj (hx.symm.trans hz)
            rw [if_pos rfl] at hran
            have hnone : x'.left = none := heq ▸ hleft
            rw [hran, ran_left hleft] at hnone
            cases hnone
          · subst hi hran htask
            refine .after (List.mem_append_right _ (List.mem_singleton_self e)) rfl ?_
              fun hput hsucceeded => ⟨_, ran_left hleft, hshown hput hsucceeded⟩
            rw [ran_left hleft]
            exact hleads
      | after he hi hleads hshown =>
          obtain ⟨before, hbefore, hcalls⟩ := hleads
          obtain ⟨hkeeps, hback⟩ := hcalls environment s.executor.service
          have hleft : x.left = some before := hbefore
          obtain ⟨last, hlast, hfinal⟩ := hback h.rests.1
            (hown job (by simp [hworker, Worker.job]) before (by simp [hx, hleft]))
          refine ⟨entries, m, h.of_standing hstep hgrown (hservice ▸ hkeeps m h.mirrors)
            (fun _ hj => hj) fun i x' task hx' heffect => ?_⟩
          obtain ⟨y, hy, hremaining, heq⟩ | ⟨hi', hran, htask⟩ :=
            effect_of_operate heffect hworker hx
          · exact (h.tasks _ _ _ hy hremaining).to heq
          · subst hi' hran htask
            rw [hlast]
            refine .after he hi hfinal fun hput hsucceeded => ?_
            rw [ran_left_of_some hleft, ← hleft]
            exact hshown hput hsucceeded

/-- The other steps change nothing that the order is about. -/
theorem Ordered.other (h : Ordered router start s entries m)
    (hstep : s.next router event = some s') (haccepts : s.Accepts event)
    (harrive : ∀ request, event ≠ .arrive request)
    (hoperate : ∀ environment, event ≠ .operate environment) :
    Ordered router start s' entries m := by
  have hservice : s'.executor.service = s.executor.service := by
    rcases service_of_step hstep with hservice | ⟨environment, _, hevent, _⟩
    · exact hservice
    · exact absurd hevent (hoperate environment)
  refine h.of_standing hstep (h.order.grow (step_grows (step_of_next hstep)))
    (hservice ▸ h.mirrors) (fun _ hj => hj) fun i x' task _ heffect => ?_
  cases heffect with
  | same hx hremaining hx' => exact (h.tasks _ _ _ hx hremaining).to hx'
  | arrived hevent => exact absurd hevent (harrive _)
  | @rejected x operation resume error hevent hx hp hadmits =>
      subst hevent
      obtain ⟨request, progress, earlier, changed, left⟩ := x
      obtain rfl : progress = _ := hp
      exact absurd (haccepts (by simp [submits, hx])) hadmits
  | executed hevent => exact absurd hevent (hoperate _)

theorem Ordered.next (h : Ordered router start s entries m)
    (hstep : s.next router event = some s') (haccepts : s.Accepts event) (hown : s.ReadsOwn event) :
    ∃ entries' m', Ordered router start s' entries' m' := by
  cases event with
  | arrive request => exact h.arrive hstep
  | operate environment => exact h.operate hown hstep
  | advance | wake | deliver | stop =>
      exact ⟨entries, m, h.other hstep haccepts (by simp) (by simp)⟩

/-- Before the first request nothing is in the order. -/
theorem ordered_init {start : Serving} (h : (runs router).init start) :
    Ordered router start.executor.service start [] start.executor.service := by
  obtain ⟨m, queueCapacity, hm, -, rfl⟩ := h
  exact
    { tracked := tracked_start
      rests := ⟨(rests_valid hm).1, rfl⟩
      mirrors := ⟨rfl, rfl, fun _ => rfl, fun _ => rfl⟩
      order := .empty
      answered := by simp
      tasks := by simp }

/-- **The 2xx responses are linearizable**, in every run whose submissions are accepted and which
reads no object back that another request has changed: there is one order of the requests in which
each, alone, gets the 2xx response that it got. Each `PUT` returns the object as it left it. -/
theorem successes_linearizable {start : Serving}
    (h : ((acceptedRuns router start).restrict ReadsOwn).Reachable s) :
    Linearizable router.RunsAlone (fun response => response.status.succeeded) start.executor.service
      s.history ∧ s.ReturnsOwn router := by
  obtain ⟨entries, m, hs⟩ :
      ∃ entries m, Ordered router start.executor.service s entries m := by
    refine h.invariant (I := fun s => ∃ entries m, Ordered router _ s entries m) ?_ ?_
    · rintro s ⟨hinit, rfl⟩
      exact ⟨[], _, ordered_init hinit⟩
    · rintro s event s' ⟨entries, m, hs⟩ ⟨hown, haccepts, hstep⟩
      exact hs.next hstep haccepts hown
  constructor
  · refine ⟨entries, m, hs.order, fun i y response hy hanswer => ?_⟩
    obtain ⟨x, hx, rfl⟩ := exchange_of_history hy
    obtain ⟨e, he, hi, hequal, -⟩ :=
      hs.listed_of_done hx (.answered (Progress.response_eq_some.mp hanswer))
    exact ⟨e, he, hi, fun hsucceeded => (hequal hsucceeded).symm⟩
  · intro x hx response hput hanswered hsucceeded
    obtain ⟨i, hi⟩ := List.getElem?_of_mem hx
    obtain ⟨e, -, -, hequal, hshown⟩ := hs.listed_of_done hi (.answered hanswered)
    have hresponse := hequal hsucceeded
    rw [hresponse] at hsucceeded ⊢
    exact hshown hput hsucceeded

/-! ## Two cooks -/

/-- What another client of the kitchen puts in the place of `lessMilk`. -/
def moreMilk : ProductRequest := { name := "milk", amount := 900, dimension := "ml" }

def milkRouter : Router := { glaze := Glaze.plain [lessMilk, moreMilk] [] }

/-- Take a step if its submission is accepted. -/
def acceptedNext (router : Router) (s : Serving) (event : ServingEvent) : Option Serving :=
  if s.Accepts event then s.next router event else none

theorem acceptedRuns_step {start : Serving} (s : Serving) (event : ServingEvent) (s' : Serving)
    (h : acceptedNext router s event = some s') : (acceptedRuns router start).step s event s' := by
  unfold acceptedNext at h
  split at h
  · next haccepts => exact ⟨haccepts, h⟩
  · cases h

/-- The second `PUT` is executed between the update of the first and its read-back. -/
def overtakenPut : List ServingEvent :=
  [.arrive (putProduct "/v1/products/1" lessMilk), .advance 0, .wake,
    .arrive (putProduct "/v1/products/1" moreMilk), .advance 1, .operate [], .wake,
    .deliver 0, .advance 0, .operate [], .deliver 0, .advance 1, .wake, .operate [], .deliver 0,
    .advance 0]

def servedCooks : Serving := System.play (acceptedNext milkRouter) (opened 2) overtakenPut

/-- A 200 with the milk of a request. -/
def milkResponse (product : ProductRequest) : Response :=
  makeJsonResponse .ok 11 true (product.undated 1).json

/-- The first cook is answered with the milk of the second. -/
theorem servedCooks_first : servedCooks.exchanges[0]?.map
    (fun x => (x.invocation, x.left.map (milkRouter.shown x.request))) =
      some (⟨putProduct "/v1/products/1" lessMilk, [], some (milkResponse moreMilk)⟩,
        some (some (milkResponse lessMilk))) := by
  decide +kernel

/-- Alone, a cook gets the milk that he sent. -/
theorem alone_put_lessMilk {m m' : DBManager} {response : Response}
    (h : milkRouter.RunsAlone m (putProduct "/v1/products/1" lessMilk) response m')
    (hsucceeded : response.status.succeeded) : response.body = (lessMilk.undated 1).json := by
  obtain ⟨environments, halone⟩ := h
  have hid : parseProductId (putProduct "/v1/products/1" lessMilk).target = some 1 := by
    decide +kernel
  rw [Router.handleAsync_products (Or.inr ⟨by simp [hid], Or.inr (Or.inl rfl)⟩), hid] at halone
  have hbody : milkRouter.glaze.parseProductRequest (putProduct "/v1/products/1" lessMilk).body =
      .ok lessMilk := by decide +kernel
  have hput : (milkRouter.updateProduct (putProduct "/v1/products/1" lessMilk) 1).amid _ m =
      (response, m') := halone
  obtain ⟨-, hcarries⟩ :=
    Router.amid_updateProduct hbody hput ((Status.succeeded_iff _).mp hsucceeded)
  exact (Except.ok.inj hcarries).symm

/-- **The first cook's 200 fits no order.** -/
theorem put_answered_with_other :
    (acceptedRuns milkRouter (opened 2)).Reachable servedCooks ∧
      ¬ Linearizable milkRouter.RunsAlone (fun response => response.status.succeeded)
        (opened 2).executor.service servedCooks.history ∧
      ¬ servedCooks.ReturnsOwn milkRouter := by
  obtain ⟨x, hx, hfirst⟩ := Option.map_eq_some_iff.mp servedCooks_first
  obtain ⟨hinvocation, hshown⟩ := Prod.mk.inj hfirst
  have hinit : (acceptedRuns milkRouter (opened 2)).init (opened 2) :=
    ⟨opened_init (by decide), rfl⟩
  refine ⟨System.Reachable.play acceptedRuns_step (.init hinit) overtakenPut, ?_, ?_⟩
  · rintro ⟨entries, m, horder, hanswered⟩
    have hy := hinvocation ▸ history_getElem? hx
    obtain ⟨e, he, hi, hequal⟩ := hanswered 0 _ _ hy rfl
    obtain ⟨y, hy', hrequest, -⟩ := horder.recorded e he
    rw [hi] at hy'
    obtain rfl := Option.some.inj (hy.symm.trans hy')
    obtain ⟨m₁, m₂, halone⟩ := horder.sequential.alone_of_mem he
    rw [← hrequest, hequal (by decide)] at halone
    exact absurd (alone_put_lessMilk halone (by decide)) (by decide +kernel)
  · intro hown
    have hanswered := Progress.response_eq_some.mp (congrArg Invocation.answer hinvocation)
    have hput := congrArg (fun y => y.request.method) hinvocation
    obtain ⟨tables, hleft, hother⟩ := hown x (List.mem_of_getElem? hx) _ hput hanswered (by decide)
    rw [hleft, Option.map_some, hother] at hshown
    exact absurd hshown (by decide +kernel)

/-- The first cook is overtaken by a list of the products and by a product that is not there; the
second comes after him. -/
def patientPuts : List ServingEvent :=
  [.arrive (putProduct "/v1/products/1" lessMilk), .advance 0, .wake,
    .arrive { method := .get, target := "/v1/products" }, .advance 1, .operate [], .wake,
    .arrive (putProduct "/v1/products/7" moreMilk), .advance 2, .operate [], .wake, .deliver 0,
    .advance 0, .operate [], .wake, .operate [], .deliver 0, .deliver 0, .deliver 0, .advance 0,
    .advance 1, .advance 2, .arrive (putProduct "/v1/products/1" moreMilk), .advance 3, .wake,
    .operate [], .deliver 0, .advance 3, .wake, .operate [], .deliver 0, .advance 3]

/-- The server after `patientPuts`, each step taken only if it meets the condition. -/
def patientCooks : Serving :=
  System.play (fun s event => if s.ReadsOwn event then acceptedNext milkRouter s event else none)
    (opened 2) patientPuts

theorem successes_linearizable_cooks :
    (Linearizable milkRouter.RunsAlone (fun response => response.status.succeeded)
      (opened 2).executor.service patientCooks.history ∧ patientCooks.ReturnsOwn milkRouter) ∧
    (patientCooks.exchanges.map fun x => (x.earlier, x.progress.status)) =
      [([], some .ok), ([], some .ok), ([], some .notFound), ([0, 1, 2], some .ok)] :=
  ⟨successes_linearizable (System.Reachable.play_restrict (S := acceptedRuns milkRouter (opened 2))
      acceptedRuns_step ⟨opened_init (by decide), rfl⟩ patientPuts),
    by decide +kernel⟩

end Serving

end RecipesCore.Net
