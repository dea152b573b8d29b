import RecipesCore.Types.Kitchen

/-!
# Application errors and the persistence port

`app::Error`, and `app::RecipeRepository` as a record of operations in some monad, so that the
service can be stated over any implementation of the port.
-/

namespace RecipesCore.App

open RecipesCore.Types

inductive ErrorCode where
  | validation
  | notFound
  | conflict
  | storage
  | overloaded
  deriving DecidableEq, Repr

structure Error where
  code : ErrorCode
  message : String
  deriving DecidableEq, Repr

/-- `std::expected<T, Error>`. -/
abbrev Expected := Except Error

structure RecipeRepository (m : Type → Type) where
  createProduct : Product → m (Expected Product)
  getProduct : Int → m (Expected (Option Product))
  getProducts : m (Expected (List Product))
  updateProduct : Int → Product → m (Expected Bool)
  deleteProduct : Int → m (Expected Bool)
  createRecipe : Recipe → m (Expected Recipe)
  getRecipe : Int → m (Expected (Option Recipe))
  getRecipes : m (Expected (List Recipe))
  getCookableRecipes : m (Expected (List Recipe))
  updateRecipe : Int → Recipe → m (Expected Bool)
  deleteRecipe : Int → m (Expected Bool)

end RecipesCore.App
