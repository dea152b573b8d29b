import RecipesCore.App.Error

/-!
# `app::RecipeService`

The use cases over any repository: validate the argument, call the repository, and turn "no such
id" into `NotFound`.
-/

namespace RecipesCore.App

open RecipesCore.Types

namespace RecipeService

/-! ## Validation -/

def validateProduct (product : Product) : Expected Unit :=
  if product.name.isEmpty then .error ⟨.validation, "Product name must not be empty"⟩
  else if product.amount < 0 then .error ⟨.validation, "Product amount must not be negative"⟩
  else .ok ()

/-- The loop over the ingredients: the first invalid one decides. -/
def validateIngredients : List Product → Expected Unit
  | [] => .ok ()
  | ingredient :: rest =>
      match validateProduct ingredient with
      | .error error => .error error
      | .ok () => validateIngredients rest

def validateRecipe (recipe : Recipe) : Expected Unit :=
  if recipe.name.isEmpty then .error ⟨.validation, "Recipe name must not be empty"⟩
  else validateIngredients recipe.ingredients

/-- A product is valid with a name and an amount that is not negative. -/
theorem validateProduct_eq_ok {product : Product} :
    validateProduct product = .ok () ↔ product.name ≠ "" ∧ 0 ≤ product.amount.toInt := by
  have hname : product.name.isEmpty = true ↔ product.name = "" := String.isEmpty_iff
  have hamount : product.amount < 0 ↔ product.amount.toInt < 0 := by
    simp [Int32.lt_iff_toInt_lt]
  unfold validateProduct
  split
  · next h => simp [hname.mp h]
  · next h =>
      have hne : product.name ≠ "" := fun hc => h (hname.mpr hc)
      split
      · next h' =>
          have := hamount.mp h'
          simp only [reduceCtorEq, false_iff, not_and]
          intro _
          omega
      · next h' =>
          have : ¬ product.amount.toInt < 0 := fun hc => h' (hamount.mpr hc)
          simp only [true_iff]
          exact ⟨hne, by omega⟩

/-- Every ingredient is checked as a product is. -/
theorem validateIngredients_eq_ok {ingredients : List Product} :
    validateIngredients ingredients = .ok () ↔
      ∀ i ∈ ingredients, i.name ≠ "" ∧ 0 ≤ i.amount.toInt := by
  induction ingredients with
  | nil => simp [validateIngredients]
  | cons i rest ih =>
      simp only [validateIngredients, List.forall_mem_cons]
      split
      · next h =>
          have : ¬ validateProduct i = .ok () := by simp [h]
          rw [validateProduct_eq_ok] at this
          simp [this]
      · next h => rw [ih, ← @validateProduct_eq_ok i, h]; simp

/-- A recipe is valid with a name and valid ingredients. -/
theorem validateRecipe_eq_ok {recipe : Recipe} :
    validateRecipe recipe = .ok () ↔
      recipe.name ≠ "" ∧ ∀ i ∈ recipe.ingredients, i.name ≠ "" ∧ 0 ≤ i.amount.toInt := by
  unfold validateRecipe
  split
  · next h => simp [String.isEmpty_iff.mp h]
  · next h =>
      have hne : recipe.name ≠ "" := fun hc => h (String.isEmpty_iff.mpr hc)
      simp [validateIngredients_eq_ok, hne]

/-! What validation refuses, it refuses as `Validation`. -/

theorem validateProduct_error {product : Product} {error : Error}
    (h : validateProduct product = .error error) : error.code = .validation := by
  unfold validateProduct at h
  split at h
  · cases h
    rfl
  · split at h
    · cases h
      rfl
    · cases h

theorem validateIngredients_error {ingredients : List Product} {error : Error}
    (h : validateIngredients ingredients = .error error) : error.code = .validation := by
  induction ingredients with
  | nil => cases h
  | cons i rest ih =>
      unfold validateIngredients at h
      split at h
      · next hi =>
          cases h
          exact validateProduct_error hi
      · exact ih h

theorem validateRecipe_error {recipe : Recipe} {error : Error}
    (h : validateRecipe recipe = .error error) : error.code = .validation := by
  unfold validateRecipe at h
  split at h
  · cases h
    rfl
  · exact validateIngredients_error h

/-! ## Use cases -/

variable {m : Type → Type} [Monad m] (repository : RecipeRepository m)

def createProduct (product : Product) : m (Expected Product) :=
  match validateProduct product with
  | .error error => pure (.error error)
  | .ok () => repository.createProduct product

def getProduct (productId : Int) : m (Expected (Option Product)) :=
  repository.getProduct productId

def getProducts : m (Expected (List Product)) := repository.getProducts

/-- The last lines of the update and delete use cases. -/
def requireFound (message : String) : Expected Bool → Expected Unit
  | .error error => .error error
  | .ok false => .error ⟨.notFound, message⟩
  | .ok true => .ok ()

def updateProduct (productId : Int) (product : Product) : m (Expected Unit) :=
  match validateProduct product with
  | .error error => pure (.error error)
  | .ok () => do
      let updated ← repository.updateProduct productId product
      return requireFound "Product was not found" updated

def deleteProduct (productId : Int) : m (Expected Unit) := do
  let deleted ← repository.deleteProduct productId
  return requireFound "Product was not found" deleted

def createRecipe (recipe : Recipe) : m (Expected Recipe) :=
  match validateRecipe recipe with
  | .error error => pure (.error error)
  | .ok () => repository.createRecipe recipe

def getRecipe (recipeId : Int) : m (Expected (Option Recipe)) := repository.getRecipe recipeId

def getRecipes : m (Expected (List Recipe)) := repository.getRecipes

def getCookableRecipes : m (Expected (List Recipe)) := repository.getCookableRecipes

def updateRecipe (recipeId : Int) (recipe : Recipe) : m (Expected Unit) :=
  match validateRecipe recipe with
  | .error error => pure (.error error)
  | .ok () => do
      let updated ← repository.updateRecipe recipeId recipe
      return requireFound "Recipe was not found" updated

def deleteRecipe (recipeId : Int) : m (Expected Unit) := do
  let deleted ← repository.deleteRecipe recipeId
  return requireFound "Recipe was not found" deleted

end RecipeService

end RecipesCore.App
