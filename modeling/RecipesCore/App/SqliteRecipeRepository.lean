import RecipesCore.App.RecipeService
import RecipesCore.Db.DBManager

/-!
# `app::SqliteRecipeRepository`

The port over a `DBManager`: every call is wrapped in `try`, and an exception becomes a `Storage`
error with the exception's text. `ServiceOperation` names the service calls made over it.
-/

namespace RecipesCore.App

open RecipesCore.Db
open RecipesCore.Types

def storageError (exception : DbException) : Error := ⟨.storage, exception.what⟩

/-- `try { return … } catch (const std::exception& exception) { return StorageError(exception); }` -/
def guarded {α : Type} (body : DbM (Expected α)) : DbM (Expected α) :=
  tryCatch body fun exception => return .error (storageError exception)

namespace SqliteRecipeRepository

def createProduct (product : Product) : DbM (Expected Product) := guarded do
  let productId ← DBManager.createProduct product
  match ← DBManager.getProduct productId with
  | none => return .error ⟨.storage, "Created product was not found"⟩
  | some createdProduct => return .ok createdProduct

def getProduct (productId : Int) : DbM (Expected (Option Product)) :=
  guarded (.ok <$> DBManager.getProduct productId)

def getProducts : DbM (Expected (List Product)) := guarded (.ok <$> DBManager.getAllProducts)

def updateProduct (productId : Int) (product : Product) : DbM (Expected Bool) :=
  guarded (.ok <$> DBManager.updateProduct productId product)

def deleteProduct (productId : Int) : DbM (Expected Bool) :=
  guarded (.ok <$> DBManager.deleteProduct productId)

def createRecipe (recipe : Recipe) : DbM (Expected Recipe) := guarded do
  let recipeId ← DBManager.createRecipe recipe
  match ← DBManager.getRecipe recipeId with
  | none => return .error ⟨.storage, "Created recipe was not found"⟩
  | some createdRecipe => return .ok createdRecipe

def getRecipe (recipeId : Int) : DbM (Expected (Option Recipe)) :=
  guarded (.ok <$> DBManager.getRecipe recipeId)

def getRecipes : DbM (Expected (List Recipe)) := guarded (.ok <$> DBManager.getAllRecipes)

def getCookableRecipes : DbM (Expected (List Recipe)) :=
  guarded (.ok <$> DBManager.getCookableRecipes)

def updateRecipe (recipeId : Int) (recipe : Recipe) : DbM (Expected Bool) :=
  guarded (.ok <$> DBManager.updateRecipe recipeId recipe)

def deleteRecipe (recipeId : Int) : DbM (Expected Bool) :=
  guarded (.ok <$> DBManager.deleteRecipe recipeId)

end SqliteRecipeRepository

def sqliteRecipeRepository : RecipeRepository DbM where
  createProduct := SqliteRecipeRepository.createProduct
  getProduct := SqliteRecipeRepository.getProduct
  getProducts := SqliteRecipeRepository.getProducts
  updateProduct := SqliteRecipeRepository.updateProduct
  deleteProduct := SqliteRecipeRepository.deleteProduct
  createRecipe := SqliteRecipeRepository.createRecipe
  getRecipe := SqliteRecipeRepository.getRecipe
  getRecipes := SqliteRecipeRepository.getRecipes
  getCookableRecipes := SqliteRecipeRepository.getCookableRecipes
  updateRecipe := SqliteRecipeRepository.updateRecipe
  deleteRecipe := SqliteRecipeRepository.deleteRecipe

/-! ## Service calls -/

inductive ServiceOperation where
  | createProduct (product : Product)
  | getProduct (productId : Int)
  | getProducts
  | updateProduct (productId : Int) (product : Product)
  | deleteProduct (productId : Int)
  | createRecipe (recipe : Recipe)
  | getRecipe (recipeId : Int)
  | getRecipes
  | getCookableRecipes
  | updateRecipe (recipeId : Int) (recipe : Recipe)
  | deleteRecipe (recipeId : Int)
  deriving DecidableEq, Repr

namespace ServiceOperation

/-- The `T` of the `std::expected<T, Error>` a service call returns. -/
abbrev Result : ServiceOperation → Type
  | .createProduct _ => Product
  | .getProduct _ => Option Product
  | .getProducts => List Product
  | .updateProduct _ _ | .deleteProduct _ => Unit
  | .createRecipe _ => Recipe
  | .getRecipe _ => Option Recipe
  | .getRecipes | .getCookableRecipes => List Recipe
  | .updateRecipe _ _ | .deleteRecipe _ => Unit

def run : (operation : ServiceOperation) → DbM (Expected operation.Result)
  | .createProduct product => RecipeService.createProduct sqliteRecipeRepository product
  | .getProduct productId => RecipeService.getProduct sqliteRecipeRepository productId
  | .getProducts => RecipeService.getProducts sqliteRecipeRepository
  | .updateProduct productId product =>
      RecipeService.updateProduct sqliteRecipeRepository productId product
  | .deleteProduct productId => RecipeService.deleteProduct sqliteRecipeRepository productId
  | .createRecipe recipe => RecipeService.createRecipe sqliteRecipeRepository recipe
  | .getRecipe recipeId => RecipeService.getRecipe sqliteRecipeRepository recipeId
  | .getRecipes => RecipeService.getRecipes sqliteRecipeRepository
  | .getCookableRecipes => RecipeService.getCookableRecipes sqliteRecipeRepository
  | .updateRecipe recipeId recipe =>
      RecipeService.updateRecipe sqliteRecipeRepository recipeId recipe
  | .deleteRecipe recipeId => RecipeService.deleteRecipe sqliteRecipeRepository recipeId

end ServiceOperation

end RecipesCore.App
