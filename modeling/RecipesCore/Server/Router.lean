import Mathlib.Data.List.TakeWhile
import RecipesCore.Api.Json
import RecipesCore.App.SqliteRecipeRepository
import RecipesCore.Server.Http

/-!
# `net::Router`

`HandleAsync` is a coroutine that stops at each `co_await database_executor_->AsyncSubmit(…)`. A
`Task` is what is left of it: a response, or an operation to submit and what to do with its result.
-/

namespace RecipesCore.Net

open RecipesCore.Api
open RecipesCore.App
open RecipesCore.Types

inductive Task where
  | done (response : Response)
  | submit (operation : ServiceOperation) (resume : Expected operation.Result → Task)

/-! ## Targets and units -/

/-- `std::from_chars` for an `int64_t`: the number at the start of the text and what is behind it. A
number that does not fit is an error, as is no digit at all. -/
def fromChars (text : List Char) : Option (Int × List Char) :=
  let (sign, rest) : Int × List Char := match text with
    | '-' :: rest => (-1, rest)
    | _ => (1, text)
  let digits := rest.takeWhile Char.isDigit
  let value := sign * digits.foldl (fun n c => 10 * n + (c.toNat - '0'.toNat : Nat)) 0
  if digits = [] ∨ value < -2 ^ 63 ∨ 2 ^ 63 ≤ value then none
  else some (value, rest.dropWhile Char.isDigit)

/-- The positive id behind a prefix. -/
def parseId (kPrefix target : String) : Option Int :=
  match kPrefix.toList.isPrefixOf? target.toList with
  | none => none
  | some idText =>
      match fromChars idText with
      | some (id, []) => if id ≤ 0 then none else some id
      | _ => none

def parseProductId (target : String) : Option Int := parseId "/v1/products/" target

def parseRecipeId (target : String) : Option Int :=
  if target = "/v1/recipes/cookable" then none else parseId "/v1/recipes/" target

theorem fromChars_repr {n : Nat} (h : n < 2 ^ 63) :
    fromChars n.repr.toList = some ((n : Int), []) := by
  have hdigits : ∀ c ∈ n.repr.toList, c.isDigit = true := fun c hc =>
    Nat.isDigit_of_mem_toDigits (by decide) (by decide) (Nat.toList_repr ▸ hc)
  have hvalue : n.repr.toList.foldl (fun n c => 10 * n + (c.toNat - '0'.toNat)) 0 = n := by
    rw [Nat.toList_repr, ← Nat.ofDigitChars_eq_foldl, Nat.ofDigitChars_ten_toDigits]
  have hne : n.repr.toList ≠ [] := by
    rw [Nat.toList_repr]
    exact Nat.toDigits_ne_nil
  unfold fromChars
  split
  next sign rest hsign =>
    split at hsign
    · next heq =>
        rw [heq] at hdigits
        simpa using hdigits '-' (by simp)
    · obtain ⟨rfl, rfl⟩ := Prod.mk.inj hsign
      simp only [List.takeWhile_eq_self_iff.mpr hdigits, List.dropWhile_eq_nil_iff.mpr hdigits,
        hvalue, Int.one_mul]
      rw [if_neg]
      simp only [hne, false_or]
      omega

theorem isPrefixOf?_append (text rest : List Char) :
    text.isPrefixOf? (text ++ rest) = some rest := by
  induction text with
  | nil => rfl
  | cons c text ih => simp [List.isPrefixOf?, ih]

/-- The target of a stored object is read as its id. -/
theorem parseId_toString {kPrefix : String} {id : Int} (hpos : 0 < id) (h : id < 2 ^ 63) :
    parseId kPrefix (kPrefix ++ toString id) = some id := by
  obtain ⟨n, rfl⟩ := Int.eq_ofNat_of_zero_le (Int.le_of_lt hpos)
  have hid : (toString (n : Int)).toList = n.repr.toList := rfl
  rw [parseId, String.toList_append, hid, isPrefixOf?_append]
  simp only [fromChars_repr (Int.ofNat_lt.mp h)]
  rw [if_neg (Int.not_le.mpr hpos)]

def parseDimension (dimension : String) : Option Dimension :=
  if dimension = "gr" then some .gramm
  else if dimension = "kg" then some .kilogramm
  else if dimension = "ml" then some .milliliter
  else if dimension = "l" then some .liter
  else if dimension = "pc" then some .piece
  else none

/-- The unit names of the interface are read as they are written; the other dimensions have none. -/
theorem parseDimension_eq_some {text : String} {dimension : Dimension} :
    parseDimension text = some dimension ↔
      dimension.IsDeclared ∧ text = dimension.getDimensionInString := by
  constructor
  · intro h
    unfold parseDimension at h
    split at h
    · next ht => cases h; exact ⟨by decide, ht⟩
    · split at h
      · next ht => cases h; exact ⟨by decide, ht⟩
      · split at h
        · next ht => cases h; exact ⟨by decide, ht⟩
        · split at h
          · next ht => cases h; exact ⟨by decide, ht⟩
          · split at h
            · next ht => cases h; exact ⟨by decide, ht⟩
            · cases h
  · rintro ⟨hdeclared, rfl⟩
    have hread : ∀ d ∈ Dimension.enumerators, parseDimension d.getDimensionInString = some d := by
      decide
    exact hread dimension hdeclared

/-! ## Responses -/

def makeJsonResponse (status : Status) (version : Nat) (keepAlive : Bool) (body : String) :
    Response :=
  Response.preparePayload
    { status, version, keepAlive, body
      contentType := some "application/json"
      xContentTypeOptions := some "nosniff" }

def toProductResponse (product : Product) : ProductResponse :=
  { id := product.id.getD 0
    name := product.name
    amount := product.amount
    dimension := product.dimension.getDimensionInString
    manufacture := none
    expiration := none }

def toRecipeResponse (recipe : Recipe) : RecipeResponse :=
  { id := recipe.id.getD 0
    name := recipe.name
    ingredients := recipe.ingredients.map toProductResponse }

def isJsonContentType (request : Request) : Bool :=
  "application/json".toList.isPrefixOf request.contentType.toList

/-- The status and the code of an application error. -/
def appErrorStatus : ErrorCode → Status × String
  | .validation => (.unprocessableEntity, "validation_error")
  | .notFound => (.notFound, "not_found")
  | .conflict => (.conflict, "conflict")
  | .overloaded => (.serviceUnavailable, "overloaded")
  | .storage => (.internalServerError, "internal_error")

/-- A router: Glaze, and whether it was given an executor. -/
structure Router where
  glaze : Glaze
  databaseExecutor : Bool := true

namespace Router

variable (router : Router)

/-- A failure to write the error itself is covered by a fixed body. -/
def makeErrorResponse (status : Status) (request : Request) (code message : String)
    (allow : Option String := none) : Response :=
  let body := match router.glaze.serializeError { code, message } with
    | .ok body => body
    | .error _ => "\x7b\"code\":\"internal_error\"\x7d"
  { makeJsonResponse status request.version request.keepAlive body with allow }

/-- What a storage error says stays inside. -/
def makeAppErrorResponse (error : Error) (request : Request) : Response :=
  let (status, code) := appErrorStatus error.code
  let message := if error.code = .storage then "Storage operation failed" else error.message
  router.makeErrorResponse status request code message

def makeMethodNotAllowedResponse (request : Request) (allow : String) : Response :=
  router.makeErrorResponse .methodNotAllowed request "method_not_allowed"
    "HTTP method is not allowed" (some allow)

/-- The end of every handler that answers with JSON. -/
def serialized (status : Status) (request : Request) (what : String) :
    Except String String → Response
  | .ok body => makeJsonResponse status request.version request.keepAlive body
  | .error _ => router.makeErrorResponse .internalServerError request "serialization_error"
      ("Failed to serialize " ++ what)

def unsupportedMediaType (request : Request) : Response :=
  router.makeErrorResponse .unsupportedMediaType request "unsupported_media_type"
    "Content-Type must be application/json"

def serviceUnavailable (request : Request) : Response :=
  router.makeErrorResponse .serviceUnavailable request "service_unavailable"
    "Database service is unavailable"

/-! ## Bodies -/

/-- The product of a body, or the status and message of the error. -/
def parseProduct (body : String) : Except (Status × String) Product :=
  match router.glaze.parseProductRequest body with
  | .error message => .error (.badRequest, message)
  | .ok productRequest =>
      match parseDimension productRequest.dimension with
      | none => .error (.unprocessableEntity, "Invalid product dimension")
      | some dimension =>
          .ok { name := productRequest.name, amount := productRequest.amount, dimension }

/-- The loop over the ingredients. -/
def parseIngredients : List ProductRequest → Except (Status × String) (List Product)
  | [] => .ok []
  | ingredientRequest :: rest =>
      match parseDimension ingredientRequest.dimension with
      | none => .error (.unprocessableEntity, "Invalid recipe ingredient dimension")
      | some dimension =>
          match parseIngredients rest with
          | .error error => .error error
          | .ok ingredients =>
              .ok ({ name := ingredientRequest.name, amount := ingredientRequest.amount,
                     dimension } :: ingredients)

def parseRecipe (body : String) : Except (Status × String) Recipe :=
  match router.glaze.parseRecipeRequest body with
  | .error message => .error (.badRequest, message)
  | .ok recipeRequest =>
      match parseIngredients recipeRequest.ingredients with
      | .error error => .error error
      | .ok ingredients => .ok { name := recipeRequest.name, ingredients }

/-! ## Requests answered without the executor -/

def handle (request : Request) : Response :=
  let itemMethod := request.method = .get ∨ request.method = .put ∨ request.method = .delete
  if request.target = "/healthz" then
    if request.method ≠ .get then
      router.makeErrorResponse .methodNotAllowed request "method_not_allowed"
        "Only GET is supported for /healthz"
    else
      makeJsonResponse .ok request.version request.keepAlive "\x7b\"status\":\"ok\"\x7d"
  else if request.target = "/v1/products" ∧ request.method ≠ .get ∧ request.method ≠ .post then
    router.makeMethodNotAllowedResponse request "GET, POST"
  else if request.target = "/v1/recipes" ∧ request.method ≠ .get ∧ request.method ≠ .post then
    router.makeMethodNotAllowedResponse request "GET, POST"
  else if request.target = "/v1/recipes/cookable" ∧ request.method ≠ .get then
    router.makeMethodNotAllowedResponse request "GET"
  else if (parseProductId request.target).isSome ∧ ¬ itemMethod then
    router.makeMethodNotAllowedResponse request "GET, PUT, DELETE"
  else if (parseRecipeId request.target).isSome ∧ ¬ itemMethod then
    router.makeMethodNotAllowedResponse request "GET, PUT, DELETE"
  else
    router.makeErrorResponse .notFound request "not_found" "The requested resource was not found"

/-! ## Handlers

The product and the recipe handlers of one kind are alike: check the content type, read the body,
submit, and answer. What they do with a result is one definition each. -/

/-- Check the content type and read the body before anything is submitted. -/
def withBody {α : Type} (request : Request) (parse : String → Except (Status × String) α)
    (k : α → Task) : Task :=
  if isJsonContentType request then
    match parse request.body with
    | .error (status, message) =>
        .done (router.makeErrorResponse status request "invalid_json" message)
    | .ok a => k a
  else .done (router.unsupportedMediaType request)

/-- Answer with an application error, or go on. -/
def orAppError {α : Type} (request : Request) (k : α → Task) : Expected α → Task
  | .error error => .done (router.makeAppErrorResponse error request)
  | .ok a => k a

/-- Answer with the object that was looked for. -/
def found {α : Type} (request : Request) (missing what : String)
    (serialize : α → Except String String) : Option α → Task
  | none => .done (router.makeErrorResponse .notFound request "not_found" missing)
  | some a => .done (router.serialized .ok request what (serialize a))

/-- The answer to a `DELETE`, which has no body. -/
def deleted (request : Request) : Response :=
  { status := .noContent, version := request.version, keepAlive := request.keepAlive }

def getProduct (request : Request) (productId : Int) : Task :=
  .submit (.getProduct productId) (router.orAppError request
    (router.found request "Product was not found" "product" fun product =>
      router.glaze.serializeProduct (toProductResponse product)))

def createProduct (request : Request) : Task :=
  router.withBody request router.parseProduct fun product =>
    .submit (.createProduct product) (router.orAppError request fun createdProduct =>
      .done (router.serialized .created request "product"
        (router.glaze.serializeProduct (toProductResponse createdProduct))))

/-- The read at the end is a submission of its own. -/
def updateProduct (request : Request) (productId : Int) : Task :=
  router.withBody request router.parseProduct fun product =>
    .submit (.updateProduct productId product)
      (router.orAppError request fun _ => router.getProduct request productId)

def deleteProduct (request : Request) (productId : Int) : Task :=
  .submit (.deleteProduct productId) (router.orAppError request fun _ => .done (deleted request))

def listProducts (request : Request) : Task :=
  .submit .getProducts (router.orAppError request fun products =>
    .done (router.serialized .ok request "products"
      (router.glaze.serializeProducts (products.map toProductResponse))))

def handleRecipes (request : Request) (cookable : Bool) : Task :=
  let answer := fun recipes : List Recipe => Task.done (router.serialized .ok request "recipes"
    (router.glaze.serializeRecipes (recipes.map toRecipeResponse)))
  if router.databaseExecutor then
    if cookable then .submit .getCookableRecipes (router.orAppError request answer)
    else .submit .getRecipes (router.orAppError request answer)
  else .done (router.serviceUnavailable request)

def getRecipe (request : Request) (recipeId : Int) : Task :=
  .submit (.getRecipe recipeId) (router.orAppError request
    (router.found request "Recipe was not found" "recipe" fun recipe =>
      router.glaze.serializeRecipe (toRecipeResponse recipe)))

def createRecipe (request : Request) : Task :=
  router.withBody request router.parseRecipe fun recipe =>
    .submit (.createRecipe recipe) (router.orAppError request fun createdRecipe =>
      .done (router.serialized .created request "recipe"
        (router.glaze.serializeRecipe (toRecipeResponse createdRecipe))))

def updateRecipe (request : Request) (recipeId : Int) : Task :=
  router.withBody request router.parseRecipe fun recipe =>
    .submit (.updateRecipe recipeId recipe)
      (router.orAppError request fun _ => router.getRecipe request recipeId)

def deleteRecipe (request : Request) (recipeId : Int) : Task :=
  .submit (.deleteRecipe recipeId) (router.orAppError request fun _ => .done (deleted request))

/-- `product_id.value()` of a `PUT` or `DELETE` is there: `HandleAsync` calls this for an item only,
and for a collection only with `GET` or `POST`. -/
def handleProducts (request : Request) (productId : Option Int) : Task :=
  if router.databaseExecutor then
    match request.method, productId with
    | .post, _ => router.createProduct request
    | .put, some productId => router.updateProduct request productId
    | .delete, some productId => router.deleteProduct request productId
    | .get, some productId => router.getProduct request productId
    | .get, none => router.listProducts request
    | _, _ => .done (router.handle request)
  else .done (router.serviceUnavailable request)

def handleRecipeItem (request : Request) (recipeId : Int) : Task :=
  if router.databaseExecutor then
    match request.method with
    | .get => router.getRecipe request recipeId
    | .put => router.updateRecipe request recipeId
    | .delete => router.deleteRecipe request recipeId
    | _ => .done (router.handle request)
  else .done (router.serviceUnavailable request)

/-- The targets of the groups exclude one another, so the first match decides. -/
def handleAsync (request : Request) : Task :=
  let productId := parseProductId request.target
  let collectionMethod := request.target = "/v1/products" ∧
    (request.method = .get ∨ request.method = .post)
  let itemMethod := productId.isSome ∧
    (request.method = .get ∨ request.method = .put ∨ request.method = .delete)
  if collectionMethod ∨ itemMethod then router.handleProducts request productId
  else if request.target = "/v1/recipes" ∨ request.target = "/v1/recipes/cookable" then
    if router.databaseExecutor then
      if request.target = "/v1/recipes" ∧ request.method = .post then router.createRecipe request
      else if request.method = .get then
        router.handleRecipes request (request.target = "/v1/recipes/cookable")
      else .done (router.handle request)
    else .done (router.serviceUnavailable request)
  else
    match parseRecipeId request.target with
    | some recipeId => router.handleRecipeItem request recipeId
    | none => .done (router.handle request)

end Router

end RecipesCore.Net
