import RecipesCore.Server.Restarts

/-!
# What clients see of an item

A client that waits for its responses can rely on them, whatever other requests run meanwhile: after
a `DELETE` that succeeded nothing succeeds on that target any more, and what a `GET` or `PUT` has
shown is what a later `GET` shows unless another request may have changed it. The argument is about
the history behind the responses; `Items` says of products and of recipes what it needs of them.
-/

namespace RecipesCore.Net

open RecipesCore.Api
open RecipesCore.App RecipesCore.App.DatabaseExecutor
open RecipesCore.Logic
open RecipesCore.Relational
open RecipesCore.Types

/-! ## Which answers are behind a response -/

namespace Router

variable {router : Router} {request : Request} {answers : List Answered} {response : Response}

theorem hears_done {response' : Response}
    (h : (Task.done response').Hears answers (.done response)) :
    answers = [] ∧ response = response' := by
  cases h with
  | nothing => exact ⟨rfl, rfl⟩

theorem hears_submit {operation : ServiceOperation} {k : operation.Result → Task}
    (h : (Task.submit operation (router.orAppError request k)).Hears answers (.done response)) :
    (∃ error, answers = [⟨operation, .error error⟩] ∧
      response = router.makeAppErrorResponse error request) ∨
    ∃ a rest, answers = ⟨operation, .ok a⟩ :: rest ∧ (k a).Hears rest (.done response) := by
  cases h with
  | @told _ _ result rest _ h =>
      cases result with
      | error error =>
          obtain ⟨rfl, rfl⟩ := hears_done h
          exact Or.inl ⟨error, rfl, rfl⟩
      | ok a => exact Or.inr ⟨a, rest, rfl, h⟩

theorem hears_withBody {α : Type} {parse : String → Except (Status × String) α} {k : α → Task}
    (hparse : ∀ status message, parse request.body = .error (status, message) → status.failed)
    (h : (router.withBody request parse k).Hears answers (.done response))
    (hsucceeded : response.status.succeeded) : ∃ a, (k a).Hears answers (.done response) := by
  unfold withBody at h
  rw [Status.succeeded_iff] at hsucceeded
  split at h
  · split at h
    · next status message heq =>
        obtain ⟨-, rfl⟩ := hears_done h
        exact absurd (hparse status message heq) hsucceeded
    · next a _ => exact ⟨a, h⟩
  · obtain ⟨-, rfl⟩ := hears_done h
    exact absurd (by decide : Status.unsupportedMediaType.failed) hsucceeded

theorem found_eq_done {α : Type} {missing what : String} {write : α → Except String String}
    {object : Option α}
    (h : (router.found request missing what write object).Hears answers (.done response)) :
    answers = [] ∧
      (response.status.succeeded → ∃ a, object = some a ∧ write a = .ok response.body) ∧
      (response.status = .notFound → object = none) := by
  rw [found_eq] at h
  obtain ⟨hanswers, rfl⟩ := hears_done h
  refine ⟨hanswers, fun hsucceeded => ?_, fun hmissing => ?_⟩
  · obtain ⟨a, rfl⟩ := Option.ne_none_iff_exists'.mp (found_of_succeeded hsucceeded)
    exact ⟨a, rfl, serialized_ok ((Status.succeeded_iff _).mp hsucceeded)⟩
  · cases object with
    | none => rfl
    | some a =>
        have hstatus : (router.serialized .ok request what (write a)).status = .notFound := hmissing
        cases hwrite : write a with
        | ok body =>
            rw [hwrite] at hstatus
            cases hstatus
        | error e =>
            rw [hwrite] at hstatus
            cases hstatus

theorem makeAppErrorResponse_notFound {error : App.Error}
    (h : (router.makeAppErrorResponse error request).status = .notFound) :
    error.code = .notFound := by
  obtain ⟨code, message⟩ := error
  cases code with
  | notFound => rfl
  | _ => cases h

/-- Without an executor, items are unavailable. -/
theorem handleAsync_item_failed (hexecutor : router.databaseExecutor = false) {resource : Resource}
    {id : Int} (hitem : resource = .productItem id ∨ resource = .recipeItem id)
    (hnamed : resource.Named request.target) :
    router.handleAsync request = .done (router.serviceUnavailable request) ∨
      router.handleAsync request = .done (router.refusal request resource) := by
  obtain ⟨method, target, version, keepAlive, contentType, body⟩ := request
  rcases hitem with rfl | rfl
  · have hid : parseProductId target = some id := hnamed
    have hrecipe := parseRecipeId_of_product hid
    have hne := ne_fixed target (Or.inl (by simp [hid]))
    cases method <;> simp [handleAsync, handleProducts, handle, hid, hrecipe, hne, hexecutor,
      refusal]
  · have hid : parseRecipeId target = some id := hnamed
    have hproduct : parseProductId target = none := by
      cases hproduct : parseProductId target with
      | none => rfl
      | some productId => cases (parseRecipeId_of_product hproduct).symm.trans hid
    have hne := ne_fixed target (Or.inr (by simp [hid]))
    cases method <;> simp [handleAsync, handleRecipeItem, hid, hproduct, hne, hexecutor, refusal]

/-- Otherwise, what is neither refused nor unavailable was handled. -/
theorem handler_of_status {resource : Resource} {id : Int}
    (hitem : resource = .productItem id ∨ resource = .recipeItem id)
    (hnamed : resource.Named request.target)
    (h : (router.handleAsync request).Hears answers (.done response))
    (hstatus : response.status ≠ .serviceUnavailable ∧ response.status ≠ .methodNotAllowed) :
    resource.supports request.method = true ∧
      (router.handler request resource request.method).Hears answers (.done response) := by
  cases hexecutor : router.databaseExecutor with
  | false =>
      rcases handleAsync_item_failed hexecutor hitem hnamed with hdone | hdone
      · rw [hdone] at h
        obtain ⟨-, rfl⟩ := hears_done h
        exact absurd rfl hstatus.1
      · rw [hdone] at h
        obtain ⟨-, rfl⟩ := hears_done h
        exact absurd (refusal_status resource) hstatus.2
  | true =>
      rw [handleAsync_named hexecutor hnamed] at h
      split at h
      · next hsupports => exact ⟨hsupports, h⟩
      · obtain ⟨-, rfl⟩ := hears_done h
        exact absurd (refusal_status resource) hstatus.2

theorem status_of_succeeded (h : response.status.succeeded) :
    response.status ≠ .serviceUnavailable ∧ response.status ≠ .methodNotAllowed := by
  constructor
  · intro hstatus
    rw [hstatus] at h
    revert h
    decide
  · intro hstatus
    rw [hstatus] at h
    revert h
    decide

/-- The answers behind a 2xx response to a request for an item: the last of them shows the object
that the response carries, or removes it. -/
def Attests {α : Type} (request : Request) (shown : α → Answered) (deleted : Answered)
    (write : α → Except String String) (answers : List Answered) (response : Response) : Prop :=
  ∃ front last, answers = front ++ [last] ∧ (request.method = .delete ∧ last = deleted ∨
    (request.method = .get ∨ request.method = .put) ∧
      ∃ a, last = shown a ∧ write a = .ok response.body)

theorem getProduct_attests {productId : Int}
    (h : (router.getProduct request productId).Hears answers (.done response))
    (hsucceeded : response.status.succeeded) : ∃ product,
      answers = [⟨.getProduct productId, .ok (some product)⟩] ∧
        router.glaze.serializeProduct (toProductResponse product) = .ok response.body := by
  rcases hears_submit h with ⟨error, -, rfl⟩ | ⟨found, rest, rfl, hrest⟩
  · exact absurd hsucceeded appError_not_succeeded
  · obtain ⟨rfl, hfound, -⟩ := found_eq_done hrest
    obtain ⟨product, rfl, hbody⟩ := hfound hsucceeded
    exact ⟨product, rfl, hbody⟩

theorem getRecipe_attests {recipeId : Int}
    (h : (router.getRecipe request recipeId).Hears answers (.done response))
    (hsucceeded : response.status.succeeded) : ∃ recipe,
      answers = [⟨.getRecipe recipeId, .ok (some recipe)⟩] ∧
        router.glaze.serializeRecipe (toRecipeResponse recipe) = .ok response.body := by
  rcases hears_submit h with ⟨error, -, rfl⟩ | ⟨found, rest, rfl, hrest⟩
  · exact absurd hsucceeded appError_not_succeeded
  · obtain ⟨rfl, hfound, -⟩ := found_eq_done hrest
    obtain ⟨recipe, rfl, hbody⟩ := hfound hsucceeded
    exact ⟨recipe, rfl, hbody⟩

/-- A `DELETE` that succeeds was answered once. -/
theorem delete_attests {operation : ServiceOperation}
    (h : (Task.submit operation
      (router.orAppError request fun _ => .done (Router.deleted request))).Hears answers
        (.done response)) (hsucceeded : response.status.succeeded) :
    ∃ a, answers = [⟨operation, .ok a⟩] := by
  rcases hears_submit h with ⟨error, -, rfl⟩ | ⟨a, rest, rfl, hrest⟩
  · exact absurd hsucceeded appError_not_succeeded
  · obtain ⟨rfl, -⟩ := hears_done hrest
    exact ⟨a, rfl⟩

theorem product_attests {productId : Int}
    (hnamed : (Resource.productItem productId).Named request.target)
    (h : (router.handleAsync request).Hears answers (.done response))
    (hsucceeded : response.status.succeeded) :
    Attests request (fun product => ⟨.getProduct productId, .ok (some product)⟩)
      ⟨.deleteProduct productId, .ok ()⟩
      (fun product => router.glaze.serializeProduct (toProductResponse product)) answers
      response := by
  obtain ⟨hsupports, h⟩ := handler_of_status (Or.inl rfl) hnamed h (status_of_succeeded hsucceeded)
  cases hmethod : request.method with
  | get =>
      rw [hmethod] at h
      obtain ⟨product, rfl, hbody⟩ := getProduct_attests h hsucceeded
      exact ⟨[], _, rfl, Or.inr ⟨Or.inl hmethod, product, rfl, hbody⟩⟩
  | put =>
      rw [hmethod] at h
      obtain ⟨_, h⟩ :=
        hears_withBody (fun _ _ h => parse_failed (parseProduct_error h)) h hsucceeded
      rcases hears_submit h with ⟨error, -, rfl⟩ | ⟨_, rest, rfl, hrest⟩
      · exact absurd hsucceeded appError_not_succeeded
      · obtain ⟨product, rfl, hbody⟩ := getProduct_attests hrest hsucceeded
        exact ⟨[_], _, rfl, Or.inr ⟨Or.inr hmethod, product, rfl, hbody⟩⟩
  | delete =>
      rw [hmethod] at h
      obtain ⟨_, rfl⟩ := delete_attests h hsucceeded
      exact ⟨[], _, rfl, Or.inl ⟨hmethod, rfl⟩⟩
  | post | other =>
      rw [hmethod] at hsupports
      cases hsupports

theorem recipe_attests {recipeId : Int}
    (hnamed : (Resource.recipeItem recipeId).Named request.target)
    (h : (router.handleAsync request).Hears answers (.done response))
    (hsucceeded : response.status.succeeded) :
    Attests request (fun recipe => ⟨.getRecipe recipeId, .ok (some recipe)⟩)
      ⟨.deleteRecipe recipeId, .ok ()⟩
      (fun recipe => router.glaze.serializeRecipe (toRecipeResponse recipe)) answers
      response := by
  obtain ⟨hsupports, h⟩ := handler_of_status (Or.inr rfl) hnamed h (status_of_succeeded hsucceeded)
  cases hmethod : request.method with
  | get =>
      rw [hmethod] at h
      obtain ⟨recipe, rfl, hbody⟩ := getRecipe_attests h hsucceeded
      exact ⟨[], _, rfl, Or.inr ⟨Or.inl hmethod, recipe, rfl, hbody⟩⟩
  | put =>
      rw [hmethod] at h
      obtain ⟨_, h⟩ := hears_withBody (fun _ _ h => parse_failed (parseRecipe_error h)) h hsucceeded
      rcases hears_submit h with ⟨error, -, rfl⟩ | ⟨_, rest, rfl, hrest⟩
      · exact absurd hsucceeded appError_not_succeeded
      · obtain ⟨recipe, rfl, hbody⟩ := getRecipe_attests hrest hsucceeded
        exact ⟨[_], _, rfl, Or.inr ⟨Or.inr hmethod, recipe, rfl, hbody⟩⟩
  | delete =>
      rw [hmethod] at h
      obtain ⟨_, rfl⟩ := delete_attests h hsucceeded
      exact ⟨[], _, rfl, Or.inl ⟨hmethod, rfl⟩⟩
  | post | other =>
      rw [hmethod] at hsupports
      cases hsupports

/-- A `GET` is only answered 404 if its answer is that there is nothing. -/
theorem submit_missing {operation : ServiceOperation} {k : operation.Result → Task}
    {a : operation.Result}
    (hk : ∀ found rest, (k found).Hears rest (.done response) → response.status = .notFound →
      rest = [] ∧ found = a)
    (h : (Task.submit operation (router.orAppError request k)).Hears answers (.done response))
    (hstatus : response.status = .notFound) :
    answers = [⟨operation, .ok a⟩] ∨
      ∃ error, answers = [⟨operation, .error error⟩] ∧ error.code = .notFound := by
  rcases hears_submit h with ⟨error, rfl, rfl⟩ | ⟨found, rest, rfl, hrest⟩
  · exact Or.inr ⟨error, rfl, makeAppErrorResponse_notFound hstatus⟩
  · obtain ⟨rfl, rfl⟩ := hk found rest hrest hstatus
    exact Or.inl rfl

end Router

/-! ## Histories -/

/-- The last that one request was told comes before what a later one was told. -/
theorem split_history {history : List Telling} {i j : Nat} {front : List Answered} {a b : Answered}
    (ha : answersTo i history = front ++ [a]) (hb : b ∈ answersTo j history) (hne : j ≠ i)
    (horder : history.Pairwise fun u v => u.1 = j → v.1 ≠ i) :
    ∃ before between after, history = before ++ (i, a) :: (between ++ (j, b) :: after) ∧
      ∀ telling ∈ between, telling.1 ≠ i := by
  obtain ⟨others, lasts, hfilter, -, hlasts⟩ := List.map_eq_append_iff.mp ha
  obtain ⟨⟨i', a'⟩, rfl, rfl⟩ := List.map_eq_singleton_iff.mp hlasts
  obtain ⟨earlier, later, rfl, -, hlater⟩ := List.filter_eq_append_iff.mp hfilter
  obtain ⟨skipped, rest, rfl, -, hi, hrest⟩ := List.filter_eq_cons_iff.mp hlater
  obtain rfl : i' = i := of_decide_eq_true hi
  have hnone : ∀ telling ∈ rest, telling.1 ≠ i' := by
    intro telling htelling
    have := List.filter_eq_nil_iff.mp hrest telling htelling
    simpa using this
  obtain ⟨⟨j', b'⟩, hfiltered, rfl⟩ := List.mem_map.mp hb
  obtain ⟨hmem, hj⟩ := List.mem_filter.mp hfiltered
  obtain rfl : j' = j := of_decide_eq_true hj
  rw [← List.append_assoc] at horder hmem ⊢
  rcases List.mem_append.mp hmem with hbefore | hafter
  · exact absurd rfl ((List.pairwise_append.mp horder).2.2 _ hbefore _ List.mem_cons_self rfl)
  · rcases List.mem_cons.mp hafter with heq | hafter
    · exact absurd (congrArg Prod.fst heq) hne
    · obtain ⟨between, after, rfl⟩ := List.append_of_mem hafter
      exact ⟨_, between, after, rfl, fun telling h => hnone telling (List.mem_append_left _ h)⟩

theorem step_of_isOk {k k' : Kitchen} {telling : Telling} (h : servedRuns.step k telling k')
    (hok : telling.2.2.isOk = true) : kitchenRuns.step k telling.2 k' := by
  rcases h with hserves | ⟨hrefused | hrefused, -⟩
  · exact hserves
  · rw [hrefused] at hok
    cases hok
  · rw [hrefused] at hok
    cases hok

/-! ## Items of one kind -/

/-- What the history and the router make of one kind of items. -/
structure Items {α κ : Type} {label : α → Option Int} {key : α → κ} (router : Router)
    (catalogue : Kitchen → Catalogue label key) where
  resource : Int → Resource
  shown : Int → Option α → Answered
  deleted : Int → Answered
  write : α → Except String String
  leaves : Int → Answered → Option α → Prop
  shows : Int → Answered → Option α → Prop
  changes : Int → Answered → Prop
  speaks : Speaks kitchenRuns catalogue leaves shows changes fun id l => l = deleted id
  shown_shows : ∀ id found, shows id (shown id found) found
  shown_leaves : ∀ id found, leaves id (shown id found) found
  deleted_changes : ∀ id, changes id (deleted id)
  leaves_isOk : ∀ {id l found}, leaves id l found → l.2.isOk = true
  shows_isOk : ∀ {id l found}, shows id l found → l.2.isOk = true
  changes_isOk : ∀ {id l}, changes id l → l.2.isOk = true
  changed : ∀ {id request l}, router.AsksFor request l.1 → changes id l →
    (resource id).Named request.target ∧ (request.method = .put ∨ request.method = .delete)
  attests : ∀ {id request answers response}, (resource id).Named request.target →
    (router.handleAsync request).Hears answers (.done response) → response.status.succeeded →
    Router.Attests request (fun a => shown id (some a)) (deleted id) write answers response
  missing : ∀ {id request answers response}, (resource id).Named request.target →
    (router.handleAsync request).Hears answers (.done response) → request.method = .get →
    response.status = .notFound → ∃ last, answers = [last] ∧
      ∀ {i k k'}, servedRuns.step k (i, last) k' → last = shown id none

namespace Items

variable {α κ : Type} {label : α → Option Int} {key : α → κ} {router : Router}
  {catalogue : Kitchen → Catalogue label key}

theorem served (items : Items router catalogue) : Speaks servedRuns catalogue
    (fun id telling => items.leaves id telling.2) (fun id telling => items.shows id telling.2)
    (fun id telling => items.changes id telling.2)
    (fun id telling => telling.2 = items.deleted id) where
  steady := by
    intro id k telling k' hstep hcounted
    rcases hstep with hserves | ⟨-, rfl⟩
    · exact items.speaks.steady hserves hcounted
    · exact .refl hcounted
  leaves := fun _ _ _ _ _ hl hstep =>
    items.speaks.leaves hl (step_of_isOk hstep (items.leaves_isOk hl))
  shows := fun _ _ _ _ _ hl hstep =>
    items.speaks.shows hl (step_of_isOk hstep (items.shows_isOk hl))
  changes := fun _ _ _ _ hl hstep =>
    items.speaks.changes hl (step_of_isOk hstep (items.changes_isOk hl))
  deletes := by
    intro id k telling k' hl hstep
    refine items.speaks.deletes hl (step_of_isOk hstep ?_)
    rw [hl]
    exact items.changes_isOk (items.deleted_changes id)

section

variable (items : Items router catalogue) {exchanges : List Exchange} {history : List Telling}
  {k k' : Kitchen} {i j : Nat} {x y : Exchange} {response response' : Response} {id : Int}

/-- The last answer to a request and one to a request that came after its response. -/
theorem coherent (hrun : servedRuns.Run k history k')
    (hexplains : Serving.Explains router history exchanges)
    (hy : exchanges[j]? = some y) (hearlier : i ∈ y.earlier) {front : List Answered}
    {a b : Answered} (ha : answersTo i history = front ++ [a]) (hb : b ∈ answersTo j history) :
    ∃ between k₁ k₂, (∀ telling ∈ between, telling ∈ history ∧ telling.1 ≠ i) ∧
      servedRuns.step k₁ (j, b) k₂ ∧
      Coherent (fun id telling => items.leaves id telling.2)
        (fun id telling => items.shows id telling.2) (fun id telling => items.changes id telling.2)
        (fun id telling => telling.2 = items.deleted id) (i, a) between (j, b) := by
  obtain ⟨hlt, horder⟩ := hexplains.inOrder j y i hy hearlier
  obtain ⟨before, between, after, rfl, hothers⟩ := split_history ha hb hlt.ne' horder
  obtain ⟨_, -, hrest⟩ := System.run_append.mp hrun
  obtain ⟨k₁, hfirst, hrest⟩ := System.run_cons.mp hrest
  obtain ⟨k₂, hbetween, hrest⟩ := System.run_append.mp hrest
  obtain ⟨k₃, hlast, -⟩ := System.run_cons.mp hrest
  refine ⟨between, k₂, k₃, fun telling htelling => ⟨?_, hothers telling htelling⟩, hlast,
    items.served.coherent hfirst hbetween hlast⟩
  exact List.mem_append_right _ (List.mem_cons_of_mem _ (List.mem_append_left _ htelling))

/-- After a `DELETE` that succeeded nothing succeeds. -/
theorem gone (hrun : servedRuns.Run k history k')
    (hexplains : Serving.Explains router history exchanges) (hx : exchanges[i]? = some x)
    (hy : exchanges[j]? = some y) (hearlier : i ∈ y.earlier)
    (hxnamed : (items.resource id).Named x.request.target)
    (hynamed : (items.resource id).Named y.request.target)
    (hxanswered : x.progress = .answered response) (hyanswered : y.progress = .answered response')
    (hmethod : x.request.method = .delete) (hsucceeded : response.status.succeeded) :
    ¬ response'.status.succeeded := by
  intro hsucceeded'
  obtain ⟨front, last, hfront, ⟨-, rfl⟩ | ⟨hget | hput, -⟩⟩ :=
    items.attests hxnamed (hexplains.responses i x response hx hxanswered) hsucceeded
  · obtain ⟨front', last', hfront', hattests⟩ :=
      items.attests hynamed (hexplains.responses j y response' hy hyanswered) hsucceeded'
    have hmem : last' ∈ answersTo j history := by simp [hfront']
    obtain ⟨between, k₁, k₂, -, hlast, hcoherent⟩ :=
      items.coherent hrun hexplains hy hearlier hfront hmem
    obtain ⟨hnothing, hunchanged⟩ := hcoherent.gone id rfl
    rcases hattests with ⟨-, rfl⟩ | ⟨-, a, rfl, -⟩
    · exact hunchanged (items.deleted_changes id)
    · exact hnothing a (items.shown_leaves id (some a))
  · cases hmethod.symm.trans hget
  · cases hmethod.symm.trans hput

/-- What an answer leaves is what a later `GET` shows as long as nobody else asks for a change. -/
theorem kept (hrun : servedRuns.Run k history k')
    (hexplains : Serving.Explains router history exchanges) (hy : exchanges[j]? = some y)
    (hearlier : i ∈ y.earlier) {front : List Answered} {last : Answered} {a : α}
    (hfront : answersTo i history = front ++ [last]) (hleaves : items.leaves id last (some a))
    (hbody : items.write a = .ok response.body)
    (hynamed : (items.resource id).Named y.request.target)
    (hyanswered : y.progress = .answered response') (hymethod : y.request.method = .get)
    (hothers : ∀ l z, exchanges[l]? = some z → l ≠ i →
      (items.resource id).Named z.request.target →
        z.request.method ≠ .put ∧ z.request.method ≠ .delete) :
    response'.status ≠ .notFound ∧
      (response'.status.succeeded → response'.body = response.body) := by
  have hresponse' := hexplains.responses j y response' hy hyanswered
  -- whatever the later request is shown is the same object
  have hsame : ∀ {found}, items.shown id found ∈ answersTo j history → found = some a := by
    intro found hmem
    obtain ⟨between, k₁, k₂, hbetween, hlast, hcoherent⟩ :=
      items.coherent hrun hexplains hy hearlier hfront hmem
    refine hcoherent.stays id a found hleaves ?_ (items.shown_shows id found)
    intro telling htelling hchanges
    obtain ⟨hmem, hne⟩ := hbetween telling htelling
    obtain ⟨z, hz, hasks⟩ := hexplains.asked telling hmem
    obtain ⟨hznamed, hmethod⟩ := items.changed hasks hchanges
    obtain ⟨hput, hdelete⟩ := hothers telling.1 z hz hne hznamed
    exact hmethod.elim hput hdelete
  constructor
  · intro hstatus
    obtain ⟨last, hanswers, hlast⟩ := items.missing hynamed hresponse' hymethod hstatus
    have hmem : last ∈ answersTo j history := by simp [hanswers]
    obtain ⟨between, k₁, k₂, -, hstep, -⟩ := items.coherent hrun hexplains hy hearlier hfront hmem
    obtain rfl := hlast hstep
    cases hsame hmem
  · intro hsucceeded'
    obtain ⟨front', last', hfront', ⟨hdelete, -⟩ | ⟨-, b, rfl, hbody'⟩⟩ :=
      items.attests hynamed hresponse' hsucceeded'
    · cases hymethod.symm.trans hdelete
    · have hmem : items.shown id (some b) ∈ answersTo j history := by simp [hfront']
      obtain rfl := Option.some_inj.mp (hsame hmem)
      exact Except.ok.inj (hbody'.symm.trans hbody)

/-- What was shown is shown as long as nobody else asks for a change. -/
theorem stays (hrun : servedRuns.Run k history k')
    (hexplains : Serving.Explains router history exchanges) (hx : exchanges[i]? = some x)
    (hy : exchanges[j]? = some y) (hearlier : i ∈ y.earlier)
    (hxnamed : (items.resource id).Named x.request.target)
    (hynamed : (items.resource id).Named y.request.target)
    (hxanswered : x.progress = .answered response) (hyanswered : y.progress = .answered response')
    (hxmethod : x.request.method = .get ∨ x.request.method = .put)
    (hsucceeded : response.status.succeeded) (hymethod : y.request.method = .get)
    (hothers : ∀ l z, exchanges[l]? = some z → l ≠ i →
      (items.resource id).Named z.request.target →
        z.request.method ≠ .put ∧ z.request.method ≠ .delete) :
    response'.status ≠ .notFound ∧
      (response'.status.succeeded → response'.body = response.body) := by
  obtain ⟨front, last, hfront, ⟨hdelete, -⟩ | ⟨-, a, rfl, hbody⟩⟩ :=
    items.attests hxnamed (hexplains.responses i x response hx hxanswered) hsucceeded
  · rw [hdelete] at hxmethod
    rcases hxmethod with hget | hput
    · cases hget
    · cases hput
  · exact items.kept hrun hexplains hy hearlier hfront (items.shown_leaves id (some a)) hbody
      hynamed hyanswered hymethod hothers

end

/-! ## Products and recipes -/

/-- The service never misses what it is only asked for. -/
theorem step_error_code {k k' : Kitchen} {i : Nat} {operation : ServiceOperation} {error : Error}
    (h : servedRuns.step k (i, ⟨operation, .error error⟩) k') (hcode : error.code = .notFound) :
    k.Misses operation := by
  rcases h with hserves | ⟨hrefused | hrefused, -⟩
  · have hdeclines : k.Declines operation error.code k' := hserves
    rw [hcode] at hdeclines
    cases hdeclines with
    | missing _ hmisses => exact hmisses
  · rw [Except.error.inj hrefused] at hcode
    cases hcode
  · rw [Except.error.inj hrefused] at hcode
    cases hcode

end Items

/-- Nobody but a `PUT` or `DELETE` of the item asks for a change of it. -/
theorem asked_change {request : Request} {router : Router} {resource : Resource}
    {operation : ServiceOperation} (h : router.AsksFor request operation)
    (hasks : ∀ resource', router.Asks request resource' operation →
      resource' = resource ∧ (request.method = .put ∨ request.method = .delete)) :
    resource.Named request.target ∧ (request.method = .put ∨ request.method = .delete) := by
  obtain ⟨resource', hnamed, hresource'⟩ := h
  obtain ⟨rfl, hmethod⟩ := hasks resource' hresource'
  exact ⟨hnamed, hmethod⟩

def productItems (router : Router) : Items router Kitchen.products where
  resource := .productItem
  shown productId found := ⟨.getProduct productId, .ok found⟩
  deleted productId := ⟨.deleteProduct productId, .ok ()⟩
  write product := router.glaze.serializeProduct (toProductResponse product)
  leaves := LeavesProduct
  shows := ShowsProduct
  changes := ChangesProduct
  speaks := speaks_products
  shown_shows _ _ := .found
  shown_leaves _ _ := .shown .found
  deleted_changes _ := .deleted
  leaves_isOk h := by
    cases h with
    | shown hshows => cases hshows <;> rfl
    | created | updated => rfl
  shows_isOk h := by cases h <;> rfl
  changes_isOk h := by cases h <;> rfl
  changed hasks hchanges := by
    refine asked_change hasks fun resource' h => ?_
    cases hchanges with
    | updated =>
        cases resource' with
        | productItem => exact ⟨congrArg _ h.1.symm, Or.inl h.2.1⟩
        | _ => exact h.elim
    | deleted =>
        cases resource' with
        | productItem => exact ⟨congrArg _ h.1.symm, Or.inr h.2⟩
        | _ => exact h.elim
  attests := Router.product_attests
  missing := by
    intro productId request answers response hnamed h hmethod hstatus
    obtain ⟨-, h⟩ := Router.handler_of_status (Or.inl rfl) hnamed h (by simp [hstatus])
    rw [hmethod] at h
    rcases Router.submit_missing (a := none) (fun found rest hfound hstatus =>
      ⟨(Router.found_eq_done hfound).1, (Router.found_eq_done hfound).2.2 hstatus⟩) h hstatus with
      rfl | ⟨error, rfl, hcode⟩
    · exact ⟨_, rfl, fun _ => rfl⟩
    · exact ⟨_, rfl, fun hstep => (Items.step_error_code hstep hcode).elim⟩

def recipeItems (router : Router) : Items router Kitchen.recipes where
  resource := .recipeItem
  shown recipeId found := ⟨.getRecipe recipeId, .ok found⟩
  deleted recipeId := ⟨.deleteRecipe recipeId, .ok ()⟩
  write recipe := router.glaze.serializeRecipe (toRecipeResponse recipe)
  leaves := LeavesRecipe
  shows := ShowsRecipe
  changes := ChangesRecipe
  speaks := speaks_recipes
  shown_shows _ _ := .found
  shown_leaves _ _ := .shown .found
  deleted_changes _ := .deleted
  leaves_isOk h := by
    cases h with
    | shown hshows => cases hshows <;> rfl
    | created | updated => rfl
  shows_isOk h := by cases h <;> rfl
  changes_isOk h := by cases h <;> rfl
  changed hasks hchanges := by
    refine asked_change hasks fun resource' h => ?_
    cases hchanges with
    | updated =>
        cases resource' with
        | recipeItem => exact ⟨congrArg _ h.1.symm, Or.inl h.2.1⟩
        | _ => exact h.elim
    | deleted =>
        cases resource' with
        | recipeItem => exact ⟨congrArg _ h.1.symm, Or.inr h.2⟩
        | _ => exact h.elim
  attests := Router.recipe_attests
  missing := by
    intro recipeId request answers response hnamed h hmethod hstatus
    obtain ⟨-, h⟩ := Router.handler_of_status (Or.inr rfl) hnamed h (by simp [hstatus])
    rw [hmethod] at h
    rcases Router.submit_missing (a := none) (fun found rest hfound hstatus =>
      ⟨(Router.found_eq_done hfound).1, (Router.found_eq_done hfound).2.2 hstatus⟩) h hstatus with
      rfl | ⟨error, rfl, hcode⟩
    · exact ⟨_, rfl, fun _ => rfl⟩
    · exact ⟨_, rfl, fun hstep => (Items.step_error_code hstep hcode).elim⟩

theorem Progress.answered_of_status {progress : Progress} {status : Status}
    (h : progress.status = some status) :
    ∃ response, progress = .answered response ∧ response.status = status := by
  cases progress with
  | answered response => exact ⟨response, rfl, Option.some.inj h⟩
  | _ => cases h

namespace Lives

variable {router : Router} {s : Lives} {i j : Nat} {x y : Exchange} {response response' : Response}
  {resource : Resource} {id : Int}

/-- **What a client may rely on**, in every run, over restarts, whatever else is asked meanwhile. A
request for an item comes in after an earlier one for it was answered. If the earlier one was a
`DELETE` that succeeded, this one does not succeed. If it was a `GET` or `PUT` that succeeded and no
other request is a `PUT` or `DELETE` of the item, a `GET` is not answered 404, and its 200 has the
same body. -/
theorem items_stay_consistent (h : (runs router).Reachable s)
    (hitem : resource = .productItem id ∨ resource = .recipeItem id)
    (hx : s.requests[i]? = some x) (hy : s.requests[j]? = some y) (hearlier : i ∈ y.earlier)
    (hxnamed : resource.Named x.request.target) (hynamed : resource.Named y.request.target)
    (hxanswered : x.progress = .answered response)
    (hyanswered : y.progress = .answered response') (hsucceeded : response.status.succeeded) :
    (x.request.method = .delete → ¬ response'.status.succeeded) ∧
      (x.request.method = .get ∨ x.request.method = .put → y.request.method = .get →
        (∀ l z, s.requests[l]? = some z → l ≠ i → resource.Named z.request.target →
          z.request.method ≠ .put ∧ z.request.method ≠ .delete) →
        response'.status ≠ .notFound ∧
          (response'.status.succeeded → response'.body = response.body)) := by
  obtain ⟨start, hinit, hreach⟩ := h.exists_start
  obtain ⟨k, hk⟩ := Serving.exists_depicts hinit.1
  obtain ⟨history, k', hrun, -, hexplains⟩ := (told_of_reachable hreach hk).explains
  rcases hitem with rfl | rfl
  · exact ⟨fun hmethod => (productItems router).gone hrun hexplains hx hy hearlier hxnamed hynamed
        hxanswered hyanswered hmethod hsucceeded,
      fun hxmethod hymethod => (productItems router).stays hrun hexplains hx hy hearlier hxnamed
        hynamed hxanswered hyanswered hxmethod hsucceeded hymethod⟩
  · exact ⟨fun hmethod => (recipeItems router).gone hrun hexplains hx hy hearlier hxnamed hynamed
        hxanswered hyanswered hmethod hsucceeded,
      fun hxmethod hymethod => (recipeItems router).stays hrun hexplains hx hy hearlier hxnamed
        hynamed hxanswered hyanswered hxmethod hsucceeded hymethod⟩

/-- A `PUT`, and a `GET` of the same product from the next process. -/
def milkReadBack : List LivesEvent :=
  [.serve (.arrive (Serving.putProduct "/v1/products/1" Serving.lessMilk)), .serve (.advance 0),
    .serve .wake, .serve (.operate []), .serve (.deliver 0), .serve (.advance 0), .serve .wake,
    .serve (.operate []), .serve (.deliver 0), .serve (.advance 0), .restart 1,
    .serve (.arrive getMilk), .serve (.advance 0), .serve .wake, .serve (.operate []),
    .serve (.deliver 0), .serve (.advance 0)]

def servedMilk : Lives := System.play (next Serving.milkRouter) opened milkReadBack

theorem servedMilk_requests :
    (servedMilk.requests.map fun x => (x.request, x.earlier, x.progress.status)) =
      [(Serving.putProduct "/v1/products/1" Serving.lessMilk, [], some .ok),
        (getMilk, [0], some .ok)] := by
  decide +kernel

theorem items_stay_consistent_milk :
    ∃ x y response response', servedMilk.requests = [x, y] ∧ x.progress = .answered response ∧
      y.progress = .answered response' ∧ response'.body = response.body := by
  have hreach : (runs Serving.milkRouter).Reachable servedMilk :=
    System.Reachable.play (fun _ _ _ h => h) (.init opened_init) milkReadBack
  obtain ⟨x, rest, hall, hxview, hrest⟩ := List.map_eq_cons_iff.mp servedMilk_requests
  obtain ⟨y, rfl, hyview⟩ := List.map_eq_singleton_iff.mp hrest
  simp only [Prod.mk.injEq] at hxview hyview
  obtain ⟨hxrequest, -, hxstatus⟩ := hxview
  obtain ⟨hyrequest, hyearlier, hystatus⟩ := hyview
  obtain ⟨response, hxanswered, hxok⟩ := Progress.answered_of_status hxstatus
  obtain ⟨response', hyanswered, hyok⟩ := Progress.answered_of_status hystatus
  have hx : servedMilk.requests[0]? = some x := by simp [hall]
  have hy : servedMilk.requests[1]? = some y := by simp [hall]
  have hnamed : (Resource.productItem 1).Named x.request.target ∧
      (Resource.productItem 1).Named y.request.target := by
    rw [hxrequest, hyrequest]
    decide +kernel
  obtain ⟨-, hstays⟩ := items_stay_consistent hreach (Or.inl rfl) hx hy (by simp [hyearlier])
    hnamed.1 hnamed.2 hxanswered hyanswered (by rw [hxok]; decide)
  refine ⟨x, y, response, response', hall, hxanswered, hyanswered, ?_⟩
  refine (hstays (by simp [hxrequest, Serving.putProduct]) (by rw [hyrequest]; rfl) ?_).2
    (by rw [hyok]; decide)
  intro l z hz hl _
  rw [hall] at hz
  obtain _ | _ | l := l
  · exact absurd rfl hl
  · obtain rfl : y = z := Option.some.inj hz
    rw [hyrequest]
    decide
  · simp at hz

end Lives

end RecipesCore.Net
