import RecipesCore.Server.Router

/-!
# Which handler a request reaches

Every target belongs to at most one `Resource`, every resource supports some methods, and
`HandleAsync` runs the handler of the resource and the method. The dispatch conditions of
`HandleAsync` and the guards of `Handle` are written independently of each other; here they are
compared with the one table `Resource.supports`.
-/

namespace RecipesCore.Net

open RecipesCore.Api
open RecipesCore.App
open RecipesCore.Types

/-- How a header names the methods the router knows. -/
def Verb.text : Verb → Option String
  | .get => some "GET"
  | .post => some "POST"
  | .put => some "PUT"
  | .delete => some "DELETE"
  | .other => none

/-! ## What a coroutine may answer -/

def Task.MayAnswer : Task → Response → Prop
  | .done response, answer => answer = response
  | .submit _ resume, answer => ∃ result, (resume result).MayAnswer answer

/-- Every answer satisfies `P`. -/
def Task.Answers (task : Task) (P : Response → Prop) : Prop := ∀ answer, task.MayAnswer answer → P answer

theorem Task.answers_done {response : Response} {P : Response → Prop} (h : P response) :
    (Task.done response).Answers P := fun _ hanswer => hanswer ▸ h

theorem Task.answers_submit {operation : ServiceOperation}
    {resume : Expected operation.Result → Task} {P : Response → Prop}
    (h : ∀ result, (resume result).Answers P) : (Task.submit operation resume).Answers P := by
  rintro answer ⟨result, hanswer⟩
  exact h result answer hanswer

/-- `P` holds of the responses that the handlers build: none of them is a 405, and the fields that
only `Handle` and the sessions set are not set. -/
structure Router.Covers (router : Router) (request : Request) (P : Response → Prop) : Prop where
  json : ∀ status body, status ≠ .methodNotAllowed →
    P (makeJsonResponse status request.version request.keepAlive body)
  error : ∀ status code message, status ≠ .methodNotAllowed →
    P (router.makeErrorResponse status request code message)
  deleted : P (Router.deleted request)

namespace Router

variable {router : Router} {request : Request} {P : Response → Prop}

section

variable (hP : router.Covers request P)

include hP

theorem makeAppErrorResponse_covered (error : Error) :
    P (router.makeAppErrorResponse error request) := by
  obtain ⟨code, message⟩ := error
  cases code <;> exact hP.error _ _ _ (by decide)

theorem serialized_covered {status : Status} {what : String} (h : status ≠ .methodNotAllowed)
    (json : Except String String) : P (router.serialized status request what json) := by
  cases json with
  | ok body => exact hP.json _ _ h
  | error e => exact hP.error _ _ _ (by decide)

theorem orAppError_covered {α : Type} {k : α → Task} (h : ∀ a, (k a).Answers P)
    (result : Expected α) : (router.orAppError request k result).Answers P := by
  cases result with
  | error error => exact Task.answers_done (makeAppErrorResponse_covered hP error)
  | ok a => exact h a

theorem withBody_covered {α : Type} {parse : String → Except (Status × String) α} {k : α → Task}
    (hparse : ∀ body status message, parse body = .error (status, message) →
      status ≠ .methodNotAllowed)
    (h : ∀ a, (k a).Answers P) : (router.withBody request parse k).Answers P := by
  unfold withBody
  split
  · split
    · next status message heq => exact Task.answers_done (hP.error _ _ _ (hparse _ _ _ heq))
    · exact h _
  · exact Task.answers_done (hP.error _ _ _ (by decide))

theorem found_covered {α : Type} {missing what : String} {serialize : α → Except String String}
    (result : Option α) : (router.found request missing what serialize result).Answers P := by
  cases result with
  | none => exact Task.answers_done (hP.error _ _ _ (by decide))
  | some a => exact Task.answers_done (serialized_covered hP (by decide) _)

end

theorem parseProduct_error {body message : String} {status : Status}
    (h : router.parseProduct body = .error (status, message)) :
    status = .badRequest ∨ status = .unprocessableEntity := by
  unfold parseProduct at h
  split at h
  · cases h
    exact Or.inl rfl
  · split at h
    · cases h
      exact Or.inr rfl
    · cases h

theorem parseIngredients_error {requests : List ProductRequest} {message : String}
    {status : Status} (h : parseIngredients requests = .error (status, message)) :
    status = .unprocessableEntity := by
  induction requests with
  | nil => cases h
  | cons request rest ih =>
      rw [parseIngredients] at h
      split at h
      · cases h
        rfl
      · split at h
        · next error heq =>
            cases h
            exact ih heq
        · cases h

theorem parseRecipe_error {body message : String} {status : Status}
    (h : router.parseRecipe body = .error (status, message)) :
    status = .badRequest ∨ status = .unprocessableEntity := by
  unfold parseRecipe at h
  split at h
  · cases h
    exact Or.inl rfl
  · split at h
    · next error heq =>
        cases h
        exact Or.inr (parseIngredients_error heq)
    · cases h

theorem ne_methodNotAllowed {status : Status}
    (h : status = .badRequest ∨ status = .unprocessableEntity) : status ≠ .methodNotAllowed := by
  rcases h with rfl | rfl <;> decide

theorem getProduct_covered (hP : router.Covers request P) (productId : Int) :
    (router.getProduct request productId).Answers P :=
  Task.answers_submit (orAppError_covered hP (found_covered hP))

theorem getRecipe_covered (hP : router.Covers request P) (recipeId : Int) :
    (router.getRecipe request recipeId).Answers P :=
  Task.answers_submit (orAppError_covered hP (found_covered hP))

/-- A handler that answers the list it submits for, or the object it created. -/
theorem submitSerialized_covered (hP : router.Covers request P) {operation : ServiceOperation}
    {status : Status} {what : String} (h : status ≠ .methodNotAllowed)
    (json : operation.Result → Except String String) :
    (Task.submit operation (router.orAppError request fun a =>
      .done (router.serialized status request what (json a)))).Answers P :=
  Task.answers_submit (orAppError_covered hP fun a =>
    Task.answers_done (serialized_covered hP h (json a)))

end Router

/-! ## Resources -/

/-- What a target can name. -/
inductive Resource where
  | health
  | productCollection
  | productItem (productId : Int)
  | recipeCollection
  | cookableRecipes
  | recipeItem (recipeId : Int)
  deriving DecidableEq, Repr

namespace Resource

/-- `target` names the resource. -/
def Named (target : String) : Resource → Prop
  | health => target = "/healthz"
  | productCollection => target = "/v1/products"
  | productItem productId => parseProductId target = some productId
  | recipeCollection => target = "/v1/recipes"
  | cookableRecipes => target = "/v1/recipes/cookable"
  | recipeItem recipeId => parseRecipeId target = some recipeId

instance (target : String) : (resource : Resource) → Decidable (resource.Named target)
  | health | productCollection | recipeCollection | cookableRecipes =>
      inferInstanceAs (Decidable (target = _))
  | productItem _ => inferInstanceAs (Decidable (parseProductId target = _))
  | recipeItem _ => inferInstanceAs (Decidable (parseRecipeId target = _))

def supports : Resource → Verb → Bool
  | health, .get | cookableRecipes, .get => true
  | productCollection, .get | productCollection, .post => true
  | recipeCollection, .get | recipeCollection, .post => true
  | productItem _, .get | productItem _, .put | productItem _, .delete => true
  | recipeItem _, .get | recipeItem _, .put | recipeItem _, .delete => true
  | _, _ => false

end Resource

theorem isPrefixOf?_eq_some {text target rest : List Char}
    (h : text.isPrefixOf? target = some rest) : target = text ++ rest := by
  induction text generalizing target with
  | nil => simpa [List.isPrefixOf?] using h
  | cons c text ih =>
      cases target with
      | nil => simp [List.isPrefixOf?] at h
      | cons d target =>
          simp only [List.isPrefixOf?, beq_iff_eq] at h
          split at h
          · next heq => rw [heq, ih h, List.cons_append]
          · cases h

theorem parseId_prefix {kPrefix target : String} {id : Int} (h : parseId kPrefix target = some id) :
    ∃ rest, target.toList = kPrefix.toList ++ rest := by
  unfold parseId at h
  split at h
  · cases h
  · next rest heq => exact ⟨rest, isPrefixOf?_eq_some heq⟩

theorem parseIds_fixed : ∀ target ∈ ["/healthz", "/v1/products", "/v1/recipes",
    "/v1/recipes/cookable"], parseProductId target = none ∧ parseRecipeId target = none := by
  decide

/-- No target has both a product id and a recipe id. -/
theorem parseRecipeId_of_product {target : String} {productId : Int}
    (h : parseProductId target = some productId) : parseRecipeId target = none := by
  cases hrecipe : parseRecipeId target with
  | none => rfl
  | some recipeId =>
      obtain ⟨rest, hrest⟩ := parseId_prefix h
      unfold parseRecipeId at hrecipe
      split at hrecipe
      · cases hrecipe
      · obtain ⟨rest', hrest'⟩ := parseId_prefix hrecipe
        rw [hrest] at hrest'
        exact absurd (congrArg (fun text => text.take 5) hrest') (by simp)

namespace Resource

variable {target : String} {resource resource' : Resource}

/-- The resources that are named by one target each. -/
def target? : Resource → Option String
  | health => some "/healthz"
  | productCollection => some "/v1/products"
  | recipeCollection => some "/v1/recipes"
  | cookableRecipes => some "/v1/recipes/cookable"
  | productItem _ | recipeItem _ => none

theorem named_of_target? {fixed : String} (h : resource.target? = some fixed) :
    resource.Named target ↔ target = fixed := by
  cases resource <;> cases h <;> rfl

theorem parseIds_of_target? (h : resource.target? = some target) :
    parseProductId target = none ∧ parseRecipeId target = none := by
  cases resource <;> cases h <;> exact parseIds_fixed _ (by decide)

/-- **A target names at most one resource.** -/
theorem named_unique (h : resource.Named target) (h' : resource'.Named target) :
    resource = resource' := by
  have hfixed : ∀ {r r' : Resource} {fixed : String}, r.target? = some fixed → r.Named target →
      r'.Named target → r = r' := by
    intro r r' fixed hr hn hn'
    obtain rfl := (named_of_target? hr).mp hn
    obtain ⟨hproduct, hrecipe⟩ := parseIds_of_target? hr
    cases r' with
    | productItem productId => cases hproduct.symm.trans hn'
    | recipeItem recipeId => cases hrecipe.symm.trans hn'
    | _ => cases r <;> cases hr <;> first | rfl | exact absurd hn' (by decide)
  cases resource with
  | productItem productId =>
      cases resource' with
      | productItem productId' =>
          rw [Option.some.inj (h.symm.trans h')]
      | recipeItem recipeId => cases (parseRecipeId_of_product h).symm.trans h'
      | _ => exact (hfixed rfl h' h).symm
  | recipeItem recipeId =>
      cases resource' with
      | productItem productId => cases (parseRecipeId_of_product h').symm.trans h
      | recipeItem recipeId' => rw [Option.some.inj (h.symm.trans h')]
      | _ => exact (hfixed rfl h' h).symm
  | _ => exact hfixed rfl h h'

end Resource

/-! ## Dispatch -/

namespace Router

variable {router : Router} {request : Request} {resource : Resource}

/-- The handler of a resource and a method it supports. -/
def handler (router : Router) (request : Request) : Resource → Verb → Task
  | .health, _ =>
      .done (makeJsonResponse .ok request.version request.keepAlive "\x7b\"status\":\"ok\"\x7d")
  | .productCollection, .post => router.createProduct request
  | .productCollection, _ => router.listProducts request
  | .productItem productId, .put => router.updateProduct request productId
  | .productItem productId, .delete => router.deleteProduct request productId
  | .productItem productId, _ => router.getProduct request productId
  | .recipeCollection, .post => router.createRecipe request
  | .recipeCollection, _ => router.handleRecipes request false
  | .cookableRecipes, _ => router.handleRecipes request true
  | .recipeItem recipeId, .put => router.updateRecipe request recipeId
  | .recipeItem recipeId, .delete => router.deleteRecipe request recipeId
  | .recipeItem recipeId, _ => router.getRecipe request recipeId

/-- The last line of `Handle`. -/
def fallback (router : Router) (request : Request) : Response :=
  router.makeErrorResponse .notFound request "not_found" "The requested resource was not found"

/-- What a resource answers to a method it does not support. -/
def refusal (router : Router) (request : Request) : Resource → Response
  | .health => router.makeErrorResponse .methodNotAllowed request "method_not_allowed"
      "Only GET is supported for /healthz"
  | .productCollection | .recipeCollection =>
      router.makeMethodNotAllowedResponse request "GET, POST"
  | .cookableRecipes => router.makeMethodNotAllowedResponse request "GET"
  | .productItem _ | .recipeItem _ =>
      router.makeMethodNotAllowedResponse request "GET, PUT, DELETE"

/-- An item is not one of the fixed targets. -/
theorem ne_fixed (target : String)
    (h : (parseProductId target).isSome ∨ (parseRecipeId target).isSome) :
    target ≠ "/healthz" ∧ target ≠ "/v1/products" ∧ target ≠ "/v1/recipes" ∧
      target ≠ "/v1/recipes/cookable" := by
  refine ⟨?_, ?_, ?_, ?_⟩ <;>
  · rintro rfl
    revert h
    decide

/-- **`HandleAsync` runs the handler of the resource, or refuses the method.** -/
theorem handleAsync_named (hexecutor : router.databaseExecutor = true)
    (h : resource.Named request.target) :
    router.handleAsync request =
      if resource.supports request.method then router.handler request resource request.method
      else .done (router.refusal request resource) := by
  obtain ⟨method, target, version, keepAlive, contentType, body⟩ := request
  simp only at h
  cases resource with
  | health =>
      obtain rfl : target = "/healthz" := h
      have hids := parseIds_fixed "/healthz" (by decide)
      cases method <;> simp [handleAsync, handle, hids, Resource.supports, handler, refusal]
  | productCollection =>
      obtain rfl : target = "/v1/products" := h
      have hids := parseIds_fixed "/v1/products" (by decide)
      cases method <;> simp [handleAsync, handleProducts, handle, hids, hexecutor,
        Resource.supports, handler, refusal]
  | recipeCollection =>
      obtain rfl : target = "/v1/recipes" := h
      have hids := parseIds_fixed "/v1/recipes" (by decide)
      cases method <;> simp [handleAsync, handle, hids, hexecutor, Resource.supports, handler,
        refusal]
  | cookableRecipes =>
      obtain rfl : target = "/v1/recipes/cookable" := h
      have hids := parseIds_fixed "/v1/recipes/cookable" (by decide)
      cases method <;> simp [handleAsync, handle, hids, hexecutor, Resource.supports, handler,
        refusal]
  | productItem productId =>
      have hid : parseProductId target = some productId := h
      have hrecipe := parseRecipeId_of_product hid
      have hne := ne_fixed target (Or.inl (by simp [hid]))
      cases method <;> simp [handleAsync, handleProducts, handle, hid, hrecipe, hne, hexecutor,
        Resource.supports, handler, refusal]
  | recipeItem recipeId =>
      have hid : parseRecipeId target = some recipeId := h
      have hproduct : parseProductId target = none := by
        cases hproduct : parseProductId target with
        | none => rfl
        | some productId => cases (parseRecipeId_of_product hproduct).symm.trans hid
      have hne := ne_fixed target (Or.inr (by simp [hid]))
      cases method <;> simp [handleAsync, handleRecipeItem, handle, hid, hproduct, hne, hexecutor,
        Resource.supports, handler, refusal]

/-- **A target that names nothing gets the fallback.** -/
theorem handleAsync_unnamed (h : ∀ resource : Resource, ¬ resource.Named request.target) :
    router.handleAsync request = .done (router.fallback request) := by
  obtain ⟨method, target, version, keepAlive, contentType, body⟩ := request
  have hhealth : target ≠ "/healthz" := h .health
  have hproducts : target ≠ "/v1/products" := h .productCollection
  have hrecipes : target ≠ "/v1/recipes" := h .recipeCollection
  have hcookable : target ≠ "/v1/recipes/cookable" := h .cookableRecipes
  have hproduct : parseProductId target = none :=
    Option.eq_none_iff_forall_ne_some.mpr fun productId => h (.productItem productId)
  have hrecipe : parseRecipeId target = none :=
    Option.eq_none_iff_forall_ne_some.mpr fun recipeId => h (.recipeItem recipeId)
  simp [handleAsync, handle, hhealth, hproducts, hrecipes, hcookable, hproduct, hrecipe, fallback]

/-! ## `value()` -/

/-- `HandleProducts` as it is written, where `product_id.value()` throws `bad_optional_access` on an
empty optional: `none` is that exception. -/
def handleProductsOrThrow (router : Router) (request : Request) (productId : Option Int) :
    Option Task :=
  if router.databaseExecutor then
    match request.method with
    | .post => some (router.createProduct request)
    | .put => productId.map (router.updateProduct request)
    | .delete => productId.map (router.deleteProduct request)
    | .get =>
        match productId with
        | some productId => some (router.getProduct request productId)
        | none => some (router.listProducts request)
    | .other => some (.done (router.handle request))
  else some (.done (router.serviceUnavailable request))

/-- `HandleAsync` as it is written, one `if` after the other, with the `value()`s that throw. -/
def handleAsyncOrThrow (router : Router) (request : Request) : Option Task :=
  let isProductCollection := request.target = "/v1/products"
  let productId := parseProductId request.target
  let isRecipeCollection := request.target = "/v1/recipes"
  let isCookableRecipes := request.target = "/v1/recipes/cookable"
  let recipeId := parseRecipeId request.target
  let afterRecipes : Option Task :=
    if recipeId.isSome then
      if router.databaseExecutor then
        match request.method with
        | .get => recipeId.map (router.getRecipe request)
        | .put => recipeId.map (router.updateRecipe request)
        | .delete => recipeId.map (router.deleteRecipe request)
        | _ => some (.done (router.handle request))
      else some (.done (router.serviceUnavailable request))
    else some (.done (router.handle request))
  let afterProducts : Option Task :=
    if isRecipeCollection ∨ isCookableRecipes then
      if router.databaseExecutor then
        if isRecipeCollection ∧ request.method = .post then some (router.createRecipe request)
        else if request.method = .get then
          some (router.handleRecipes request isCookableRecipes)
        else afterRecipes
      else some (.done (router.serviceUnavailable request))
    else afterRecipes
  if isProductCollection ∨ productId.isSome then
    let collectionMethod := isProductCollection ∧ (request.method = .get ∨ request.method = .post)
    let itemMethod := productId.isSome ∧
      (request.method = .get ∨ request.method = .put ∨ request.method = .delete)
    if collectionMethod ∨ itemMethod then router.handleProductsOrThrow request productId
    else afterProducts
  else afterProducts

/-- **No `value()` is ever called on an empty optional.** -/
theorem handleAsyncOrThrow_eq : router.handleAsyncOrThrow request = some (router.handleAsync request) := by
  obtain ⟨method, target, version, keepAlive, contentType, body⟩ := request
  cases hproduct : parseProductId target with
  | some productId =>
      have hrecipe := parseRecipeId_of_product hproduct
      have hne := ne_fixed target (Or.inl (by simp [hproduct]))
      cases method <;> simp [handleAsyncOrThrow, handleAsync, handleProductsOrThrow, handleProducts,
        hproduct, hrecipe, hne] <;> split <;> rfl
  | none =>
      cases hexecutor : router.databaseExecutor <;> cases hrecipe : parseRecipeId target with
      | some recipeId =>
          have hne := ne_fixed target (Or.inr (by simp [hrecipe]))
          cases method <;> simp [handleAsyncOrThrow, handleAsync, handleRecipeItem, hproduct,
            hrecipe, hne, hexecutor]
      | none =>
          rcases eq_or_ne target "/v1/products" with rfl | hproducts
          · cases method <;> simp [handleAsyncOrThrow, handleAsync, handleProductsOrThrow,
              handleProducts, hproduct, hrecipe, hexecutor]
          · cases method <;> simp [handleAsyncOrThrow, handleAsync, hproducts, hproduct, hrecipe,
              hexecutor] <;> split_ifs <;> rfl

/-! ## The partition -/

theorem refusal_status (resource : Resource) :
    (router.refusal request resource).status = .methodNotAllowed := by
  cases resource <;> rfl

theorem withBody_ne_fallback {α : Type} {parse : String → Except (Status × String) α}
    {k : α → Task}
    (hparse : ∀ body status message, parse body = .error (status, message) →
      status = .badRequest ∨ status = .unprocessableEntity)
    (hk : ∀ a, k a ≠ .done (router.fallback request)) :
    router.withBody request parse k ≠ .done (router.fallback request) := by
  unfold withBody
  split
  · split
    · next status message heq =>
        intro h
        have hstatus : status = .notFound := congrArg Response.status (Task.done.inj h)
        rw [hstatus] at heq
        exact absurd (hparse _ _ _ heq) (by decide)
    · exact hk _
  · intro h
    exact absurd (congrArg Response.status (Task.done.inj h))
      (by decide : Status.unsupportedMediaType ≠ .notFound)

theorem handler_ne_fallback (hexecutor : router.databaseExecutor = true) (resource : Resource)
    (method : Verb) : router.handler request resource method ≠ .done (router.fallback request) := by
  have hrecipes : ∀ cookable,
      router.handleRecipes request cookable ≠ .done (router.fallback request) := by
    intro cookable
    cases cookable <;> simp [handleRecipes, hexecutor]
  have hproduct : ∀ k : Product → Task, (∀ product, k product ≠ .done (router.fallback request)) →
      router.withBody request router.parseProduct k ≠ .done (router.fallback request) :=
    fun k => withBody_ne_fallback fun _ _ _ => parseProduct_error
  have hrecipe : ∀ k : Recipe → Task, (∀ recipe, k recipe ≠ .done (router.fallback request)) →
      router.withBody request router.parseRecipe k ≠ .done (router.fallback request) :=
    fun k => withBody_ne_fallback fun _ _ _ => parseRecipe_error
  cases resource with
  | health =>
      intro h
      exact absurd (congrArg Response.status (Task.done.inj h)) (by decide : Status.ok ≠ .notFound)
  | productCollection =>
      cases method with
      | post => exact hproduct _ nofun
      | _ => exact nofun
  | productItem productId =>
      cases method with
      | put => exact hproduct _ nofun
      | _ => exact nofun
  | recipeCollection =>
      cases method with
      | post => exact hrecipe _ nofun
      | _ => exact hrecipes false
  | cookableRecipes => exact hrecipes true
  | recipeItem recipeId =>
      cases method with
      | put => exact hrecipe _ nofun
      | _ => exact nofun

/-- **Routing is a total, unambiguous partition.** A target names at most one resource; the one
handler of the resource and the method runs when the method is supported, a 405 answers the other
methods, the fallback answers exactly the targets that name nothing, and no `value()` throws. -/
theorem routing_partition (glaze : Glaze) (request : Request) :
    (∀ resource resource' : Resource, resource.Named request.target →
      resource'.Named request.target → resource = resource') ∧
    (∀ resource : Resource, resource.Named request.target →
      resource.supports request.method = true → Router.handleAsync { glaze } request =
        Router.handler { glaze } request resource request.method) ∧
    (∀ resource : Resource, resource.Named request.target →
      resource.supports request.method = false →
      ∃ response, Router.handleAsync { glaze } request = .done response ∧
        response.status = .methodNotAllowed) ∧
    (Router.handleAsync { glaze } request = .done (Router.fallback { glaze } request) ↔
      ∀ resource : Resource, ¬ resource.Named request.target) ∧
    Router.handleAsyncOrThrow { glaze } request = some (Router.handleAsync { glaze } request) := by
  refine ⟨fun _ _ => Resource.named_unique, ?_, ?_, ⟨?_, handleAsync_unnamed⟩, handleAsyncOrThrow_eq⟩
  · intro resource hnamed hsupports
    rw [handleAsync_named rfl hnamed, if_pos hsupports]
  · intro resource hnamed hsupports
    have hrefused : Router.handleAsync { glaze } request = _ := handleAsync_named rfl hnamed
    simp only [hsupports, Bool.false_eq_true, if_false] at hrefused
    exact ⟨_, hrefused, refusal_status resource⟩
  · intro hfallback resource hnamed
    rw [handleAsync_named rfl hnamed] at hfallback
    split at hfallback
    · exact handler_ne_fallback rfl resource _ hfallback
    · have hstatus := congrArg Response.status (Task.done.inj hfallback)
      rw [refusal_status] at hstatus
      cases hstatus

/-! ## The `Allow` header -/

/-- Some answer to the request is a 405. -/
def Refuses (router : Router) (request : Request) : Prop :=
  ∃ response, (router.handleAsync request).MayAnswer response ∧
    response.status = .methodNotAllowed

/-- The methods that a header lists: separated by commas, blanks do not count. -/
def listed (allow : String) : List String :=
  ((allow.toList.filter fun c => c ≠ ' ').splitOn ',').map String.ofList

/-- The header is there and lists the methods that are not refused for this target. -/
def AllowAgrees (router : Router) (target : String) (response : Response) : Prop :=
  ∃ allow, response.allow = some allow ∧
    (∀ text ∈ listed allow, ∃ method : Verb, method.text = some text) ∧
    ∀ request, request.target = target →
      ((∃ text ∈ listed allow, request.method.text = some text) ↔ ¬ router.Refuses request)

/-- What the handlers answer is covered. -/
theorem handler_covered (hexecutor : router.databaseExecutor = true) {P : Response → Prop}
    (hP : router.Covers request P) (resource : Resource) (method : Verb) :
    (router.handler request resource method).Answers P := by
  have hproduct : ∀ {k : Product → Task}, (∀ product, (k product).Answers P) →
      (router.withBody request router.parseProduct k).Answers P :=
    withBody_covered hP fun _ _ _ h => ne_methodNotAllowed (parseProduct_error h)
  have hrecipe : ∀ {k : Recipe → Task}, (∀ recipe, (k recipe).Answers P) →
      (router.withBody request router.parseRecipe k).Answers P :=
    withBody_covered hP fun _ _ _ h => ne_methodNotAllowed (parseRecipe_error h)
  have hdelete : ∀ {operation : ServiceOperation}, (Task.submit operation
      (router.orAppError request fun _ => .done (Router.deleted request))).Answers P :=
    Task.answers_submit (orAppError_covered hP fun _ => Task.answers_done hP.deleted)
  have hrecipes : ∀ cookable, (router.handleRecipes request cookable).Answers P := by
    intro cookable
    unfold handleRecipes
    rw [if_pos hexecutor]
    split
    · exact submitSerialized_covered hP (by decide) _
    · exact submitSerialized_covered hP (by decide) _
  cases resource with
  | health => exact Task.answers_done (hP.json _ _ (by decide))
  | productCollection =>
      cases method with
      | post => exact hproduct fun _ => submitSerialized_covered hP (by decide) _
      | _ => exact submitSerialized_covered hP (by decide) _
  | productItem productId =>
      cases method with
      | put =>
          exact hproduct fun _ =>
            Task.answers_submit (orAppError_covered hP fun _ => getProduct_covered hP productId)
      | delete => exact hdelete
      | _ => exact getProduct_covered hP productId
  | recipeCollection =>
      cases method with
      | post => exact hrecipe fun _ => submitSerialized_covered hP (by decide) _
      | _ => exact hrecipes false
  | cookableRecipes => exact hrecipes true
  | recipeItem recipeId =>
      cases method with
      | put =>
          exact hrecipe fun _ =>
            Task.answers_submit (orAppError_covered hP fun _ => getRecipe_covered hP recipeId)
      | delete => exact hdelete
      | _ => exact getRecipe_covered hP recipeId

/-- A 405 is the refusal of a resource that does not support the method. -/
theorem refused (hexecutor : router.databaseExecutor = true) {response : Response}
    (h : (router.handleAsync request).MayAnswer response)
    (hstatus : response.status = .methodNotAllowed) :
    ∃ resource : Resource, resource.Named request.target ∧
      resource.supports request.method = false ∧ response = router.refusal request resource := by
  by_cases hnamed : ∃ resource : Resource, resource.Named request.target
  · obtain ⟨resource, hnamed⟩ := hnamed
    rw [handleAsync_named hexecutor hnamed] at h
    split at h
    · have hcovers : router.Covers request fun answer => answer.status ≠ .methodNotAllowed :=
        ⟨fun _ _ h => h, fun _ _ _ h => h, (by decide : Status.noContent ≠ .methodNotAllowed)⟩
      exact absurd hstatus (handler_covered hexecutor hcovers resource _ response h)
    · next hsupports => exact ⟨resource, hnamed, by simpa using hsupports, h⟩
  · rw [handleAsync_unnamed (not_exists.mp hnamed)] at h
    rw [h] at hstatus
    cases hstatus

theorem refuses_iff (hexecutor : router.databaseExecutor = true)
    (hnamed : resource.Named request.target) :
    router.Refuses request ↔ resource.supports request.method = false := by
  constructor
  · rintro ⟨response, hanswer, hstatus⟩
    obtain ⟨resource', hnamed', hsupports, -⟩ := refused hexecutor hanswer hstatus
    rwa [Resource.named_unique hnamed hnamed']
  · intro hsupports
    refine ⟨router.refusal request resource, ?_, refusal_status resource⟩
    rw [handleAsync_named hexecutor hnamed, hsupports]
    rfl

/-- The header lists the methods of the resource. -/
def Lists (response : Response) (resource : Resource) : Prop :=
  ∃ allow, response.allow = some allow ∧
    (∀ text ∈ listed allow, ∃ method : Verb, method.text = some text) ∧
    ∀ method : Verb, (∃ text ∈ listed allow, method.text = some text) ↔
      resource.supports method = true

theorem lists_of {response : Response} {allow : String} (texts : List String)
    (hlisted : listed allow = texts)
    (hknown : ∀ text ∈ texts, text ∈ ["GET", "POST", "PUT", "DELETE"])
    (hallow : response.allow = some allow)
    (hsupports : ∀ method : Verb, (∃ text ∈ texts, method.text = some text) ↔
      resource.supports method = true) : Lists response resource := by
  subst hlisted
  refine ⟨allow, hallow, fun text htext => ?_, hsupports⟩
  have htext := hknown text htext
  simp only [List.mem_cons, List.not_mem_nil, or_false] at htext
  rcases htext with rfl | rfl | rfl | rfl
  exacts [⟨.get, rfl⟩, ⟨.post, rfl⟩, ⟨.put, rfl⟩, ⟨.delete, rfl⟩]

/-- Each header is the one of its resource. -/
theorem refusal_lists (hhealth : resource ≠ .health) :
    Lists (router.refusal request resource) resource := by
  cases resource with
  | health => exact absurd rfl hhealth
  | productCollection | recipeCollection =>
      refine lists_of ["GET", "POST"] (by decide) (by decide) rfl fun method => ?_
      cases method <;> decide
  | cookableRecipes =>
      refine lists_of ["GET"] (by decide) (by decide) rfl fun method => ?_
      cases method <;> decide
  | productItem _ | recipeItem _ =>
      refine lists_of ["GET", "PUT", "DELETE"] (by decide) (by decide) rfl fun method => ?_
      cases method <;> simp [Verb.text, Resource.supports]

/-- **The `Allow` header agrees with dispatch exactly on the targets other than `/healthz`.** -/
theorem allow_agrees_iff (glaze : Glaze) (request : Request) (response : Response)
    (h : (Router.handleAsync { glaze } request).MayAnswer response)
    (hstatus : response.status = .methodNotAllowed) :
    Router.AllowAgrees { glaze } request.target response ↔ request.target ≠ "/healthz" := by
  obtain ⟨resource, hnamed, -, rfl⟩ := refused rfl h hstatus
  constructor
  · rintro ⟨allow, hallow, -⟩ htarget
    obtain rfl : resource = .health := Resource.named_unique hnamed htarget
    cases hallow
  · intro htarget
    have hhealth : resource ≠ .health := by
      rintro rfl
      exact htarget hnamed
    obtain ⟨allow, hallow, hknown, hlisted⟩ := refusal_lists hhealth
    refine ⟨allow, hallow, hknown, fun other hother => ?_⟩
    rw [hlisted, refuses_iff rfl (hother ▸ hnamed), Bool.not_eq_false]

/-- An unknown method on the product collection. -/
theorem allow_agrees_products : Router.AllowAgrees { glaze := Glaze.plain [] [] } "/v1/products"
    (Router.refusal { glaze := Glaze.plain [] [] } { target := "/v1/products" }
      .productCollection) :=
  (allow_agrees_iff (Glaze.plain [] []) { target := "/v1/products" } _ rfl rfl).mpr (by decide)

/-- `POST /healthz` is answered with a 405 that has no `Allow` header. -/
theorem health_refused_without_allow :
    ∃ response, Router.handleAsync { glaze := Glaze.plain [] [] }
        { method := .post, target := "/healthz" } = .done response ∧
      response.status = .methodNotAllowed ∧ response.allow = none ∧
      ¬ Router.AllowAgrees { glaze := Glaze.plain [] [] } "/healthz" response :=
  ⟨_, rfl, rfl, rfl, fun ⟨_, hallow, _⟩ => nomatch hallow⟩

/-! ## A field the router does not set -/

/-- The router never sends `Strict-Transport-Security`. -/
theorem handleAsync_insecure (glaze : Glaze) (request : Request) :
    (Router.handleAsync { glaze } request).Answers fun response =>
      response.strictTransportSecurity = none := by
  by_cases hnamed : ∃ resource : Resource, resource.Named request.target
  · obtain ⟨resource, hnamed⟩ := hnamed
    rw [handleAsync_named rfl hnamed]
    split
    · have hcovers : Router.Covers { glaze } request fun response =>
          response.strictTransportSecurity = none :=
        ⟨fun _ _ _ => rfl, fun _ _ _ _ => rfl, rfl⟩
      exact handler_covered rfl hcovers resource _
    · refine Task.answers_done ?_
      cases resource <;> rfl
  · rw [handleAsync_unnamed (not_exists.mp hnamed)]
    exact Task.answers_done rfl

end Router

end RecipesCore.Net
