import Mathlib.Data.Int.ConditionallyCompleteOrder
import RecipesCore.App.Classification
import RecipesCore.App.RecipeWrites
import RecipesCore.Db.Stock
import RecipesCore.Logic.Refinement
import RecipesCore.Relational.Catalogue

/-!
# What the service is for

A `Kitchen` has a catalogue of products, no two of one name and dimension, and one of recipes, no
two of one name. `Serves` says what a use case may answer over it and which kitchen it leaves; there
are no tables, statements or transactions in it. An operation may always fail without a trace, and a
create may also fail after the fact, since the service reads back what it has stored.
-/

namespace RecipesCore.App

open RecipesCore.Db
open RecipesCore.Logic
open RecipesCore.Relational
open RecipesCore.Types

structure Kitchen where
  products : Catalogue Product.id productKey
  recipes : Catalogue Recipe.id Recipe.name

/-- A product as it is kept: under an id, and its dates as far as their texts carry them. -/
def keptProduct (product : Product) (productId : Int) : Product :=
  { product with id := some productId, dates := product.dates.readBack }

/-- A recipe as it is kept: under an id, and its ingredients in canonical form. -/
def keptRecipe (recipe : Recipe) (ingredients : List Product) (recipeId : Int) : Recipe :=
  { name := recipe.name, ingredients, id := some recipeId }

namespace Kitchen

/-- There is enough of the product of this name and dimension. -/
def HasEnough (k : Kitchen) (ingredient : Product) : Prop :=
  ∃ productId product, k.products.entry productId = some product ∧
    productKey product = productKey ingredient ∧ ingredient.amount.toInt ≤ product.amount.toInt

/-- There is enough for every ingredient. -/
def CanCook (k : Kitchen) (recipe : Recipe) : Prop := ∀ i ∈ recipe.ingredients, k.HasEnough i

/-- The id of an update or delete has no entry. -/
def Misses (k : Kitchen) : ServiceOperation → Prop
  | .updateProduct productId _ | .deleteProduct productId => k.products.entry productId = none
  | .updateRecipe recipeId _ | .deleteRecipe recipeId => k.recipes.entry recipeId = none
  | _ => False

/-- The operation is done, with this result and leaving `k'`. -/
def Does (k : Kitchen) : (op : ServiceOperation) → op.Result → Kitchen → Prop
  | .createProduct product, created, k' => k'.recipes = k.recipes ∧ ∃ productId,
      created = keptProduct product productId ∧ k.products.Adds productId created k'.products
  | .getProduct productId, found, k' => k' = k ∧ found = k.products.entry productId
  | .getProducts, products, k' => k' = k ∧ k.products.Lists products ∧
      products.Pairwise fun a b => a.amount.toInt ≤ b.amount.toInt
  | .updateProduct productId product, _, k' => k'.recipes = k.recipes ∧
      k.products.Replaces productId (keptProduct product productId) k'.products
  | .deleteProduct productId, _, k' => k'.recipes = k.recipes ∧
      k.products.Removes productId k'.products
  | .createRecipe recipe, created, k' => k'.products = k.products ∧ ∃ ingredients recipeId,
      Canonical recipe.ingredients ingredients ∧ created = keptRecipe recipe ingredients recipeId ∧
      k.recipes.Adds recipeId created k'.recipes
  | .getRecipe recipeId, found, k' => k' = k ∧ found = k.recipes.entry recipeId
  | .getRecipes, recipes, k' => k' = k ∧ k.recipes.Lists recipes ∧
      recipes.Pairwise fun a b => a.name < b.name
  | .getCookableRecipes, recipes, k' => k' = k ∧ (recipes.Pairwise fun a b => a.name < b.name) ∧
      ∀ recipe, recipe ∈ recipes ↔
        (∃ recipeId, k.recipes.entry recipeId = some recipe) ∧ k.CanCook recipe
  | .updateRecipe recipeId recipe, _, k' => k'.products = k.products ∧ ∃ ingredients,
      Canonical recipe.ingredients ingredients ∧
      k.recipes.Replaces recipeId (keptRecipe recipe ingredients recipeId) k'.recipes
  | .deleteRecipe recipeId, _, k' => k'.products = k.products ∧
      k.recipes.Removes recipeId k'.recipes

/-- The operation is answered with an error of this code, and leaves `k'`. -/
inductive Declines (k : Kitchen) (op : ServiceOperation) : ErrorCode → Kitchen → Prop where
  | invalid : op.Invalid → Declines k op .validation k
  | missing : ¬ op.Invalid → k.Misses op → Declines k op .notFound k
  | failed : ¬ op.Invalid → Declines k op .storage k
  /-- It was done, but reading back what it created failed. -/
  | unconfirmed {result : op.Result} {k' : Kitchen} : ¬ op.Invalid → op.creates = true →
      k.Does op result k' → Declines k op .storage k'

def Serves (k : Kitchen) (op : ServiceOperation) (k' : Kitchen) : Expected op.Result → Prop
  | .ok result => ¬ op.Invalid ∧ k.Does op result k'
  | .error error => k.Declines op error.code k'

end Kitchen

/-! ## Histories -/

/-- A use case and what it answered. -/
abbrev Answered := (op : ServiceOperation) × Expected op.Result

/-- The service over a manager, seen from outside: how SQLite's steps end is not part of it. -/
def serviceRuns : System DBManager Answered where
  init m := m = {}
  step m answered m' := ∃ environment, answered.1.call environment m = (answered.2, m')

def kitchenRuns : System Kitchen Answered where
  init k := k.products.entry = (fun _ => none) ∧ k.recipes.entry = fun _ => none
  step k answered k' := k.Serves answered.1 k' answered.2

end RecipesCore.App
