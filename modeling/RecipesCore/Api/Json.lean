import RecipesCore.Types.Kitchen

/-!
# The JSON interface

The structs of `api/Types.hpp`. Reading and writing them is Glaze's work, which `api/Json.cpp` only
names field by field, so `Glaze` is a parameter: what becomes of each text and of each struct.
-/

namespace RecipesCore.Api

open RecipesCore.Types

structure ProductRequest where
  name : String
  amount : Int32 := 0
  dimension : String
  manufacture : Option String := none
  expiration : Option String := none
  deriving DecidableEq, Repr

structure ProductResponse where
  id : Int := 0
  name : String
  amount : Int32 := 0
  dimension : String
  manufacture : Option String := none
  expiration : Option String := none
  deriving DecidableEq, Repr

structure RecipeRequest where
  name : String
  ingredients : List ProductRequest := []
  deriving DecidableEq, Repr

structure RecipeResponse where
  id : Int := 0
  name : String
  ingredients : List ProductResponse := []
  deriving DecidableEq, Repr

structure ErrorResponse where
  code : String
  message : String
  deriving DecidableEq, Repr

/-- `glz::read_json` and `glz::write_json` at the five structs, an error being its text. -/
structure Glaze where
  parseProductRequest : String → Except String ProductRequest
  parseRecipeRequest : String → Except String RecipeRequest
  serializeProduct : ProductResponse → Except String String
  serializeProducts : List ProductResponse → Except String String
  serializeRecipe : RecipeResponse → Except String String
  serializeRecipes : List RecipeResponse → Except String String
  serializeError : ErrorResponse → Except String String

/-- Writing one product or recipe into a string that grows does not fail. -/
structure Glaze.WritesAll (glaze : Glaze) : Prop where
  product : ∀ response, ∃ body, glaze.serializeProduct response = .ok body
  recipe : ∀ response, ∃ body, glaze.serializeRecipe response = .ok body

/-- Every field is written: two products that are written alike are the same. -/
def Glaze.WritesFields (glaze : Glaze) : Prop :=
  ∀ r r' body, glaze.serializeProduct r = .ok body → glaze.serializeProduct r' = .ok body → r = r'

/-! ## Plain texts

The texts Glaze writes where no character needs an escape: fields in order, absent dates left out. -/

def jsonText (text : String) : String := "\"" ++ text ++ "\""

def jsonInt (n : Int) : String := String.ofList (zeroPadded 1 n)

def jsonField (key value : String) : String := jsonText key ++ ":" ++ value

def jsonObject (fields : List String) : String := "\x7b" ++ ",".intercalate fields ++ "\x7d"

def jsonArray (values : List String) : String := "[" ++ ",".intercalate values ++ "]"

/-- The fields a request and a response share. -/
def productFields (name : String) (amount : Int32) (dimension : String)
    (manufacture expiration : Option String) : List String :=
  [jsonField "name" (jsonText name), jsonField "amount" (jsonInt amount.toInt),
    jsonField "dimension" (jsonText dimension)] ++
    (manufacture.map fun date => jsonField "manufacture" (jsonText date)).toList ++
    (expiration.map fun date => jsonField "expiration" (jsonText date)).toList

def ProductRequest.json (r : ProductRequest) : String :=
  jsonObject (productFields r.name r.amount r.dimension r.manufacture r.expiration)

def ProductResponse.json (r : ProductResponse) : String :=
  jsonObject (jsonField "id" (jsonInt r.id) ::
    productFields r.name r.amount r.dimension r.manufacture r.expiration)

def RecipeRequest.json (r : RecipeRequest) : String :=
  jsonObject [jsonField "name" (jsonText r.name),
    jsonField "ingredients" (jsonArray (r.ingredients.map ProductRequest.json))]

def RecipeResponse.json (r : RecipeResponse) : String :=
  jsonObject [jsonField "id" (jsonInt r.id), jsonField "name" (jsonText r.name),
    jsonField "ingredients" (jsonArray (r.ingredients.map ProductResponse.json))]

def ErrorResponse.json (r : ErrorResponse) : String :=
  jsonObject [jsonField "code" (jsonText r.code), jsonField "message" (jsonText r.message)]

/-- The one of `values` that is written as `text`. -/
def readPlain {α : Type} (json : α → String) (values : List α) (text : String) :
    Except String α :=
  match values.find? fun value => decide (json value = text) with
  | some value => .ok value
  | none => .error "syntax_error"

/-- A Glaze that writes plain texts and reads those of some requests. -/
def Glaze.plain (products : List ProductRequest) (recipes : List RecipeRequest) : Glaze where
  parseProductRequest := readPlain ProductRequest.json products
  parseRecipeRequest := readPlain RecipeRequest.json recipes
  serializeProduct r := .ok r.json
  serializeProducts rs := .ok (jsonArray (rs.map ProductResponse.json))
  serializeRecipe r := .ok r.json
  serializeRecipes rs := .ok (jsonArray (rs.map RecipeResponse.json))
  serializeError r := .ok r.json

/-- Plain texts are a way to write and read all of these values. -/
theorem Glaze.plain_writesAll (products : List ProductRequest) (recipes : List RecipeRequest) :
    (Glaze.plain products recipes).WritesAll where
  product response := ⟨response.json, rfl⟩
  recipe response := ⟨response.json, rfl⟩

end RecipesCore.Api
