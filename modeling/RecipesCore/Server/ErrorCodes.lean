import RecipesCore.Server.Routing

/-!
# The code of an error and its status

`Emits` lists what the handlers may answer: no error, an error whose code has its status in one
table, or `invalid_json`, whose status `ParseProduct` and `ParseRecipe` choose by what is wrong with
the body.
-/

namespace RecipesCore.Api

/-- Writing two strings into a string that grows does not fail, and the text has the code. -/
structure Glaze.WritesErrors (glaze : Glaze) : Prop where
  error : ∀ response, ∃ body, glaze.serializeError response = .ok body
  code : ∀ r r' body, glaze.serializeError r = .ok body → glaze.serializeError r' = .ok body →
    r.code = r'.code

end RecipesCore.Api

namespace RecipesCore.Net

open RecipesCore.Api
open RecipesCore.App
open RecipesCore.Types

/-- The status that goes with a code, `invalid_json` apart. -/
def kStatus (code : String) : Option Status :=
  if code = "validation_error" then some .unprocessableEntity
  else if code = "not_found" then some .notFound
  else if code = "conflict" then some .conflict
  else if code = "overloaded" then some .serviceUnavailable
  else if code = "service_unavailable" then some .serviceUnavailable
  else if code = "internal_error" then some .internalServerError
  else if code = "serialization_error" then some .internalServerError
  else if code = "method_not_allowed" then some .methodNotAllowed
  else if code = "unsupported_media_type" then some .unsupportedMediaType
  else none

/-! ## What is wrong with a body -/

inductive BodyFault where
  /-- Glaze cannot read the body. -/
  | unreadable
  /-- A dimension in the body is none of the five. -/
  | dimension
  deriving DecidableEq, Repr

def BodyFault.status : BodyFault → Status
  | .unreadable => .badRequest
  | .dimension => .unprocessableEntity

theorem BodyFault.status_failed (fault : BodyFault) : fault.status.failed := by
  cases fault <;> decide

theorem BodyFault.status_injective : Function.Injective BodyFault.status := by
  intro fault fault' h
  cases fault <;> cases fault' <;> first
    | rfl
    | cases h

namespace Router

variable (router : Router)

def productFault (body : String) : Option BodyFault :=
  match router.glaze.parseProductRequest body with
  | .error _ => some .unreadable
  | .ok productRequest =>
      if parseDimension productRequest.dimension = none then some .dimension else none

def recipeFault (body : String) : Option BodyFault :=
  match router.glaze.parseRecipeRequest body with
  | .error _ => some .unreadable
  | .ok recipeRequest =>
      if ∃ ingredient ∈ recipeRequest.ingredients, parseDimension ingredient.dimension = none then
        some .dimension
      else none

/-- What is wrong with the body of a request whose handler looks at it. -/
def bodyFault (request : Request) : Option BodyFault :=
  if router.databaseExecutor ∧ isJsonContentType request then
    if request.method = .post ∧ request.target = "/v1/products" ∨
        request.method = .put ∧ (parseProductId request.target).isSome then
      router.productFault request.body
    else if request.method = .post ∧ request.target = "/v1/recipes" ∨
        request.method = .put ∧ (parseRecipeId request.target).isSome then
      router.recipeFault request.body
    else none
  else none

/-- The body of an error response says `code`. -/
def CarriesCode (response : Response) (code : String) : Prop :=
  ∃ message, router.glaze.serializeError { code, message } = .ok response.body

variable {router} {request request' : Request}

/-- `ParseProduct` fails for one of the two faults, with its status. -/
theorem parseProduct_error_iff {body : String} {status : Status} :
    (∃ message, router.parseProduct body = .error (status, message)) ↔
      ∃ fault, router.productFault body = some fault ∧ status = fault.status := by
  unfold parseProduct productFault
  cases router.glaze.parseProductRequest body with
  | error message => simp [BodyFault.status, eq_comm]
  | ok productRequest =>
      cases hdimension : parseDimension productRequest.dimension with
      | none => simp [hdimension, BodyFault.status, eq_comm]
      | some dimension => simp [hdimension]

theorem parseIngredients_error_iff {requests : List ProductRequest} :
    (∃ ingredient ∈ requests, parseDimension ingredient.dimension = none) ↔
      ∃ message, parseIngredients requests = .error (.unprocessableEntity, message) := by
  induction requests with
  | nil => simp [parseIngredients]
  | cons ingredient rest ih =>
      rw [List.exists_mem_cons_iff, ih, parseIngredients]
      cases hdimension : parseDimension ingredient.dimension with
      | none => simp
      | some dimension =>
          cases hrest : parseIngredients rest with
          | error error => simp
          | ok ingredients => simp

/-- `ParseRecipe` as well. -/
theorem parseRecipe_error_iff {body : String} {status : Status} :
    (∃ message, router.parseRecipe body = .error (status, message)) ↔
      ∃ fault, router.recipeFault body = some fault ∧ status = fault.status := by
  unfold parseRecipe recipeFault
  cases router.glaze.parseRecipeRequest body with
  | error message => simp [BodyFault.status, eq_comm]
  | ok recipeRequest =>
      have hfault := @parseIngredients_error_iff recipeRequest.ingredients
      cases hparsed : parseIngredients recipeRequest.ingredients with
      | ok ingredients =>
          have hnone : ¬ ∃ ingredient ∈ recipeRequest.ingredients,
              parseDimension ingredient.dimension = none := by
            rw [hfault, hparsed]
            simp
          simp only [hparsed, if_neg hnone]
          simp
      | error error =>
          obtain ⟨status', message⟩ := error
          obtain rfl := parseIngredients_error hparsed
          simp only [hparsed, if_pos (hfault.mpr ⟨message, hparsed⟩)]
          simp [BodyFault.status, eq_comm]

/-! ## What is answered -/

/-- No error, an error with the status of its code, or a fault of the body. -/
def Emits (router : Router) (request : Request) (response : Response) : Prop :=
  ¬ response.status.failed ∨ ∃ status code message allow,
    response = router.makeErrorResponse status request code message allow ∧
      (kStatus code = some status ∨
        code = "invalid_json" ∧ ∃ fault, router.bodyFault request = some fault ∧
          status = fault.status)

theorem makeErrorResponse_emits {status : Status} {code message : String} {allow : Option String}
    (h : kStatus code = some status) :
    router.Emits request (router.makeErrorResponse status request code message allow) :=
  Or.inr ⟨_, _, _, _, rfl, Or.inl h⟩

theorem makeAppErrorResponse_emits (error : Error) :
    router.Emits request (router.makeAppErrorResponse error request) := by
  obtain ⟨code, message⟩ := error
  cases code <;> exact makeErrorResponse_emits (by decide)

theorem serialized_emits {status : Status} {what : String} (h : ¬ status.failed)
    (json : Except String String) :
    router.Emits request (router.serialized status request what json) := by
  cases json with
  | ok body => exact Or.inl h
  | error e => exact makeErrorResponse_emits (by decide)

theorem orAppError_emits {α : Type} {k : α → Task} (h : ∀ a, (k a).Answers (router.Emits request))
    (result : Expected α) :
    (router.orAppError request k result).Answers (router.Emits request) := by
  cases result with
  | error error => exact Task.answers_done (makeAppErrorResponse_emits error)
  | ok a => exact h a

theorem found_emits {α : Type} {missing what : String} {serialize : α → Except String String}
    (result : Option α) :
    (router.found request missing what serialize result).Answers (router.Emits request) := by
  cases result with
  | none => exact Task.answers_done (makeErrorResponse_emits (by decide))
  | some a => exact Task.answers_done (serialized_emits (by decide) _)

/-- A handler that answers what it submitted for. -/
theorem submitSerialized_emits {operation : ServiceOperation} {status : Status} {what : String}
    (h : ¬ status.failed) (json : operation.Result → Except String String) :
    (Task.submit operation (router.orAppError request fun a =>
      .done (router.serialized status request what (json a)))).Answers (router.Emits request) := by
  apply Task.answers_submit
  apply orAppError_emits
  intro a
  exact Task.answers_done (serialized_emits h (json a))

theorem getProduct_emits (productId : Int) :
    (router.getProduct request productId).Answers (router.Emits request) :=
  Task.answers_submit (orAppError_emits found_emits)

theorem getRecipe_emits (recipeId : Int) :
    (router.getRecipe request recipeId).Answers (router.Emits request) :=
  Task.answers_submit (orAppError_emits found_emits)

theorem serviceUnavailable_emits : router.Emits request (router.serviceUnavailable request) :=
  makeErrorResponse_emits (by decide)

/-- The body is what `bodyFault` looks at. -/
theorem withBody_emits {α : Type} {parse : String → Except (Status × String) α} {k : α → Task}
    {faultOf : String → Option BodyFault}
    (hfault : isJsonContentType request = true → router.bodyFault request = faultOf request.body)
    (hparse : ∀ {body status}, (∃ message, parse body = .error (status, message)) ↔
      ∃ fault, faultOf body = some fault ∧ status = fault.status)
    (h : ∀ a, (k a).Answers (router.Emits request)) :
    (router.withBody request parse k).Answers (router.Emits request) := by
  unfold withBody
  split
  · next hjson =>
      split
      · next status message heq =>
          obtain ⟨fault, hfaultOf, hstatus⟩ := hparse.mp ⟨message, heq⟩
          apply Task.answers_done
          exact Or.inr ⟨_, _, _, _, rfl,
            Or.inr ⟨rfl, fault, (hfault hjson).trans hfaultOf, hstatus⟩⟩
      · exact h _
  · exact Task.answers_done (makeErrorResponse_emits (by decide))

theorem makeMethodNotAllowedResponse_emits (allow : String) :
    router.Emits request (router.makeMethodNotAllowedResponse request allow) :=
  makeErrorResponse_emits (by decide)

theorem handle_emits : router.Emits request (router.handle request) := by
  unfold handle
  dsimp only
  split
  · split
    · exact makeErrorResponse_emits (by decide)
    · exact Or.inl (by show ¬ Status.ok.failed; decide)
  · -- a method that the target does not have, or no such target
    repeat' split
    all_goals first
      | apply makeMethodNotAllowedResponse_emits
      | exact makeErrorResponse_emits (by decide)

theorem refusal_emits (resource : Resource) :
    router.Emits request (router.refusal request resource) := by
  cases resource <;> exact makeErrorResponse_emits (by decide)

theorem bodyFault_product (hexecutor : router.databaseExecutor = true)
    (hjson : isJsonContentType request = true)
    (h : request.method = .post ∧ request.target = "/v1/products" ∨
      request.method = .put ∧ (parseProductId request.target).isSome) :
    router.bodyFault request = router.productFault request.body := by
  rw [bodyFault, if_pos ⟨hexecutor, hjson⟩, if_pos h]

theorem bodyFault_recipe (hexecutor : router.databaseExecutor = true)
    (hjson : isJsonContentType request = true)
    (h : request.method = .post ∧ request.target = "/v1/recipes" ∨
      request.method = .put ∧ (parseRecipeId request.target).isSome) :
    router.bodyFault request = router.recipeFault request.body := by
  have hproduct : ¬ (request.method = .post ∧ request.target = "/v1/products" ∨
      request.method = .put ∧ (parseProductId request.target).isSome) := by
    intro hproduct
    obtain ⟨hpost, htarget⟩ | ⟨hput, hid⟩ := h
    · obtain ⟨-, htarget'⟩ | ⟨hput, -⟩ := hproduct
      · rw [htarget] at htarget'
        exact absurd htarget' (by decide)
      · rw [hpost] at hput
        cases hput
    · obtain ⟨hpost, -⟩ | ⟨-, hid'⟩ := hproduct
      · rw [hput] at hpost
        cases hpost
      · obtain ⟨productId, hproductId⟩ := Option.isSome_iff_exists.mp hid'
        rw [parseRecipeId_of_product hproductId] at hid
        cases hid
  rw [bodyFault, if_pos ⟨hexecutor, hjson⟩, if_neg hproduct, if_pos h]

/-- With an executor, the handler of the resource or its refusal answers. -/
theorem handler_emits (hexecutor : router.databaseExecutor = true) {resource : Resource}
    (hnamed : resource.Named request.target) :
    (router.handler request resource request.method).Answers (router.Emits request) := by
  have hdelete : ∀ {operation : ServiceOperation}, (Task.submit operation
      (router.orAppError request fun _ => .done (Router.deleted request))).Answers
        (router.Emits request) := by
    intro operation
    apply Task.answers_submit
    apply orAppError_emits
    intro _
    exact Task.answers_done (Or.inl (by show ¬ Status.noContent.failed; decide))
  have hrecipes : ∀ cookable,
      (router.handleRecipes request cookable).Answers (router.Emits request) := by
    intro cookable
    rw [handleRecipes, if_pos hexecutor]
    cases cookable <;> exact submitSerialized_emits (by decide) _
  cases resource with
  | health => exact Task.answers_done (Or.inl (by show ¬ Status.ok.failed; decide))
  | productCollection =>
      cases hmethod : request.method with
      | post =>
          exact withBody_emits
            (fun hjson => bodyFault_product hexecutor hjson (Or.inl ⟨hmethod, hnamed⟩))
            parseProduct_error_iff (fun _ => submitSerialized_emits (by decide) _)
      | _ => exact submitSerialized_emits (by decide) _
  | productItem productId =>
      have hid : (parseProductId request.target).isSome := by
        rw [show parseProductId request.target = some productId from hnamed]
        rfl
      cases hmethod : request.method with
      | put =>
          exact withBody_emits
            (fun hjson => bodyFault_product hexecutor hjson (Or.inr ⟨hmethod, hid⟩))
            parseProduct_error_iff
            (fun _ => Task.answers_submit (orAppError_emits fun _ => getProduct_emits productId))
      | delete => exact hdelete
      | _ => exact getProduct_emits productId
  | recipeCollection =>
      cases hmethod : request.method with
      | post =>
          exact withBody_emits
            (fun hjson => bodyFault_recipe hexecutor hjson (Or.inl ⟨hmethod, hnamed⟩))
            parseRecipe_error_iff (fun _ => submitSerialized_emits (by decide) _)
      | _ => exact hrecipes false
  | cookableRecipes => exact hrecipes true
  | recipeItem recipeId =>
      have hid : (parseRecipeId request.target).isSome := by
        rw [show parseRecipeId request.target = some recipeId from hnamed]
        rfl
      cases hmethod : request.method with
      | put =>
          exact withBody_emits
            (fun hjson => bodyFault_recipe hexecutor hjson (Or.inr ⟨hmethod, hid⟩))
            parseRecipe_error_iff
            (fun _ => Task.answers_submit (orAppError_emits fun _ => getRecipe_emits recipeId))
      | delete => exact hdelete
      | _ => exact getRecipe_emits recipeId

/-- **What `HandleAsync` answers**, with an executor or without one. -/
theorem handleAsync_emits : (router.handleAsync request).Answers (router.Emits request) := by
  cases hexecutor : router.databaseExecutor with
  | true =>
      by_cases hnamed : ∃ resource : Resource, resource.Named request.target
      · obtain ⟨resource, hnamed⟩ := hnamed
        rw [handleAsync_named hexecutor hnamed]
        split
        · exact handler_emits hexecutor hnamed
        · exact Task.answers_done (refusal_emits resource)
      · rw [handleAsync_unnamed (not_exists.mp hnamed)]
        exact Task.answers_done (makeErrorResponse_emits (by decide))
  | false =>
      -- without an executor no body is looked at, so `bodyFault` plays no part
      simp only [handleAsync, handleProducts, handleRecipeItem, hexecutor, Bool.false_eq_true,
        if_false]
      split_ifs
      · exact Task.answers_done serviceUnavailable_emits
      · exact Task.answers_done serviceUnavailable_emits
      · split
        · exact Task.answers_done serviceUnavailable_emits
        · exact Task.answers_done handle_emits

/-- A faulty body is answered at once, with the status of its fault. -/
theorem handleAsync_of_bodyFault {fault : BodyFault} (h : router.bodyFault request = some fault) :
    ∃ message, router.handleAsync request =
      .done (router.makeErrorResponse fault.status request "invalid_json" message) := by
  unfold bodyFault at h
  split at h
  · next hlooks =>
      obtain ⟨hexecutor, hjson⟩ := hlooks
      split at h
      · next hproduct =>
          obtain ⟨message, hparse⟩ := parseProduct_error_iff.mpr ⟨fault, h, rfl⟩
          refine ⟨message, ?_⟩
          obtain ⟨hmethod, htarget⟩ | ⟨hmethod, hid⟩ := hproduct
          · have hnamed : Resource.productCollection.Named request.target := htarget
            rw [handleAsync_named hexecutor hnamed, hmethod]
            simp [Resource.supports, handler, createProduct, withBody, hjson, hparse]
          · obtain ⟨productId, hid⟩ := Option.isSome_iff_exists.mp hid
            have hnamed : (Resource.productItem productId).Named request.target := hid
            rw [handleAsync_named hexecutor hnamed, hmethod]
            simp [Resource.supports, handler, updateProduct, withBody, hjson, hparse]
      · split at h
        · next hrecipe =>
            obtain ⟨message, hparse⟩ := parseRecipe_error_iff.mpr ⟨fault, h, rfl⟩
            refine ⟨message, ?_⟩
            obtain ⟨hmethod, htarget⟩ | ⟨hmethod, hid⟩ := hrecipe
            · have hnamed : Resource.recipeCollection.Named request.target := htarget
              rw [handleAsync_named hexecutor hnamed, hmethod]
              simp [Resource.supports, handler, createRecipe, withBody, hjson, hparse]
            · obtain ⟨recipeId, hid⟩ := Option.isSome_iff_exists.mp hid
              have hnamed : (Resource.recipeItem recipeId).Named request.target := hid
              rw [handleAsync_named hexecutor hnamed, hmethod]
              simp [Resource.supports, handler, updateRecipe, withBody, hjson, hparse]
        · cases h
  · cases h

theorem mayAnswer_of_bodyFault {fault : BodyFault} (h : router.bodyFault request = some fault) :
    ∃ message, (router.handleAsync request).MayAnswer
      (router.makeErrorResponse fault.status request "invalid_json" message) := by
  obtain ⟨message, hdone⟩ := handleAsync_of_bodyFault h
  refine ⟨message, ?_⟩
  rw [hdone]
  rfl

/-! ## One status for a code -/

section

variable {glaze : Glaze} {executor executor' : Bool}

theorem makeErrorResponse_body (hglaze : glaze.WritesErrors) {status : Status}
    {code message : String} {allow : Option String} :
    glaze.serializeError { code, message } =
      .ok (makeErrorResponse ⟨glaze, executor⟩ status request code message allow).body := by
  obtain ⟨body, hbody⟩ := hglaze.error { code, message }
  simp only [makeErrorResponse, hbody]
  rfl

/-- The text of an error response has the code it was made with, and no other. -/
theorem carriesCode_makeErrorResponse (hglaze : glaze.WritesErrors) {status : Status}
    {code message carried : String} {allow : Option String} :
    CarriesCode ⟨glaze, executor⟩
      (makeErrorResponse ⟨glaze, executor⟩ status request code message allow) carried ↔
        carried = code := by
  constructor
  · intro h
    obtain ⟨message', hcarried⟩ := h
    exact hglaze.code _ _ _ hcarried (makeErrorResponse_body hglaze)
  · rintro rfl
    exact ⟨message, makeErrorResponse_body hglaze⟩

/-- An error response with code `code` has the status of the code, or it answers a faulty body. -/
theorem status_of_carriesCode (hglaze : glaze.WritesErrors) {response : Response} {code : String}
    (hanswer : (handleAsync ⟨glaze, executor⟩ request).MayAnswer response)
    (hfailed : response.status.failed) (hcode : CarriesCode ⟨glaze, executor⟩ response code) :
    kStatus code = some response.status ∨ code = "invalid_json" ∧
      ∃ fault, bodyFault ⟨glaze, executor⟩ request = some fault ∧
        response.status = fault.status := by
  obtain hok | ⟨status, code', message, allow, rfl, hstatus⟩ := handleAsync_emits _ hanswer
  · exact absurd hfailed hok
  · obtain rfl := (carriesCode_makeErrorResponse hglaze).mp hcode
    exact hstatus

/-- **The code determines the status**, of any two error responses to the two requests, except when
one of them has a body that cannot be read and the other a dimension that is none. -/
theorem code_determines_status_iff (hglaze : glaze.WritesErrors) :
    (∀ response response' code,
      (handleAsync ⟨glaze, executor⟩ request).MayAnswer response →
      (handleAsync ⟨glaze, executor'⟩ request').MayAnswer response' →
      response.status.failed → response'.status.failed →
      CarriesCode ⟨glaze, executor⟩ response code →
      CarriesCode ⟨glaze, executor'⟩ response' code → response.status = response'.status) ↔
    ¬ ∃ fault fault', bodyFault ⟨glaze, executor⟩ request = some fault ∧
      bodyFault ⟨glaze, executor'⟩ request' = some fault' ∧ fault ≠ fault' := by
  constructor
  · intro h hfaults
    obtain ⟨fault, fault', hfault, hfault', hne⟩ := hfaults
    obtain ⟨message, hanswer⟩ := mayAnswer_of_bodyFault hfault
    obtain ⟨message', hanswer'⟩ := mayAnswer_of_bodyFault hfault'
    have hstatus : fault.status = fault'.status :=
      h _ _ "invalid_json" hanswer hanswer' fault.status_failed fault'.status_failed
        ((carriesCode_makeErrorResponse hglaze).mpr rfl)
        ((carriesCode_makeErrorResponse hglaze).mpr rfl)
    exact hne (BodyFault.status_injective hstatus)
  · -- both codes are tabled, or one is, which `invalid_json` is not, or both bodies are faulty
    intro hsame response response' code hanswer hanswer' hfailed hfailed' hcode hcode'
    obtain hstatus | ⟨rfl, fault, hfault, hstatus⟩ :=
      status_of_carriesCode hglaze hanswer hfailed hcode
    · obtain hstatus' | ⟨rfl, -⟩ := status_of_carriesCode hglaze hanswer' hfailed' hcode'
      · exact Option.some.inj (hstatus.symm.trans hstatus')
      · cases hstatus
    · obtain hstatus' | ⟨-, fault', hfault', hstatus'⟩ :=
        status_of_carriesCode hglaze hanswer' hfailed' hcode'
      · cases hstatus'
      · rw [hstatus, hstatus']
        by_contra hne
        exact hsame ⟨fault, fault', hfault, hfault', fun heq => hne (by rw [heq])⟩

end

/-! ### Two faulty bodies -/

/-- The characters of a JSON string, quotes and backslashes escaped. -/
def jsonEscape : List Char → List Char
  | [] => []
  | c :: rest =>
      if c = '"' ∨ c = '\\' then '\\' :: c :: jsonEscape rest else c :: jsonEscape rest

/-- The first quote that is not escaped ends the string. -/
theorem jsonEscape_append_inj {s t x y : List Char}
    (h : jsonEscape s ++ '"' :: x = jsonEscape t ++ '"' :: y) : s = t := by
  induction s generalizing t with
  | nil =>
      cases t with
      | nil => rfl
      | cons c t => grind [jsonEscape]
  | cons c s ih =>
      cases t with
      | nil => grind [jsonEscape]
      | cons d t => grind [jsonEscape]

/-- Reads one product with an unknown dimension, and writes errors with their quotes escaped. -/
def cupGlaze : Glaze :=
  { Glaze.plain [{ name := "Milk", amount := 2, dimension := "cup" }] [] with
    serializeError := fun r => .ok (String.ofList ("\x7b\"code\":\"".toList ++
      (jsonEscape r.code.toList ++ '"' :: (",\"message\":\"".toList ++
        (jsonEscape r.message.toList ++ "\"\x7d".toList))))) }

theorem cupGlaze_writesErrors : cupGlaze.WritesErrors where
  error response := ⟨_, rfl⟩
  code r r' body h h' := by
    have heq := (Except.ok.inj h).trans (Except.ok.inj h').symm
    have hlist := List.append_cancel_left (String.ofList_injective heq)
    exact String.toList_injective (jsonEscape_append_inj hlist)

def postCup : Request :=
  { method := .post, target := "/v1/products", contentType := "application/json"
    body := ({ name := "Milk", amount := 2, dimension := "cup" } : ProductRequest).json }

def postText : Request := { postCup with body := "milk" }

def postRecipeText : Request := { postText with target := "/v1/recipes" }

/-- A product and a recipe that cannot be read answer with one status. -/
theorem code_determines_status_texts :
    bodyFault ⟨cupGlaze, true⟩ postText = some .unreadable ∧
    bodyFault ⟨cupGlaze, true⟩ postRecipeText = some .unreadable ∧
    ∀ response response' code,
      (handleAsync ⟨cupGlaze, true⟩ postText).MayAnswer response →
      (handleAsync ⟨cupGlaze, true⟩ postRecipeText).MayAnswer response' →
      response.status.failed → response'.status.failed →
      CarriesCode ⟨cupGlaze, true⟩ response code →
      CarriesCode ⟨cupGlaze, true⟩ response' code → response.status = response'.status := by
  have hproduct : bodyFault ⟨cupGlaze, true⟩ postText = some .unreadable := by decide +kernel
  have hrecipe : bodyFault ⟨cupGlaze, true⟩ postRecipeText = some .unreadable := by decide +kernel
  refine ⟨hproduct, hrecipe, (code_determines_status_iff cupGlaze_writesErrors).mpr ?_⟩
  rintro ⟨fault, fault', hfault, hfault', hne⟩
  rw [hproduct] at hfault
  rw [hrecipe] at hfault'
  exact hne (Option.some.inj (hfault.symm.trans hfault'))

/-- A text and a product measured in cups are both `invalid_json`, with a 400 and a 422. -/
theorem invalid_json_has_two_statuses :
    ∃ response response', handleAsync ⟨cupGlaze, true⟩ postText = .done response ∧
      handleAsync ⟨cupGlaze, true⟩ postCup = .done response' ∧
      CarriesCode ⟨cupGlaze, true⟩ response "invalid_json" ∧
      CarriesCode ⟨cupGlaze, true⟩ response' "invalid_json" ∧
      response.status = .badRequest ∧ response'.status = .unprocessableEntity := by
  have htext : bodyFault ⟨cupGlaze, true⟩ postText = some .unreadable := by decide +kernel
  have hcup : bodyFault ⟨cupGlaze, true⟩ postCup = some .dimension := by decide +kernel
  obtain ⟨message, hmessage⟩ := handleAsync_of_bodyFault htext
  obtain ⟨message', hmessage'⟩ := handleAsync_of_bodyFault hcup
  exact ⟨_, _, hmessage, hmessage', ⟨message, rfl⟩, ⟨message', rfl⟩, rfl, rfl⟩

end Router

end RecipesCore.Net
