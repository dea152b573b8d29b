import RecipesCore.Db.Connection
import RecipesCore.Types.Kitchen

/-!
# `db::DBManager`

Every public operation, written as in the source: reset the statement, bind its parameters, step
it. `Operation` names the calls and `Operation.run` makes one, so that a run of the manager is a
list of operations; each call meets its own `environment`.
-/

namespace RecipesCore.Db

open RecipesCore.Logic RecipesCore.Logic.Program
open RecipesCore.Sqlite
open RecipesCore.Types

/-! ## Helpers -/

def resetStatement (s : StatementId) : DbM Unit := do
  reset s
  clearBindings s

def bindProduct (s : StatementId) (product : Product) : DbM Unit := do
  bind s 1 (.text product.name)
  bind s 2 (.integer product.dimension.code)
  bind s 3 (.integer product.amount.toInt)
  bind s 4 (.ofNullable (fun date => .text (toDateString date)) product.dates.manufacture)
  bind s 5 (.ofNullable (fun date => .text (toDateString date)) product.dates.expiration)

def getColumn (row : Row) (index : Nat) : Value := row.getD index .null

def readDate (value : Value) : Option SysDays :=
  if value.isNull then none else some (fromDateString value.getString)

def readProduct (row : Row) : Product :=
  { id := some (getColumn row 0).getInt64
    name := (getColumn row 1).getString
    dimension := Dimension.ofCode (getColumn row 2).getInt.toInt
    amount := (getColumn row 3).getInt
    dates :=
      { manufacture := readDate (getColumn row 4)
        expiration := readDate (getColumn row 5) } }

/-- An ingredient from the three columns that start at `first`. -/
def readIngredient (row : Row) (first : Nat) : Product :=
  { name := (getColumn row first).getString
    dimension := Dimension.ofCode (getColumn row (first + 1)).getInt.toInt
    amount := (getColumn row (first + 2)).getInt }

namespace DBManager

/-! ## Products -/

def insertProduct (product : Product) : DbM Unit := do
  resetStatement (.write .insertProduct)
  bindProduct (.write .insertProduct) product
  exec .insertProduct

def insertProducts (products : List Product) : DbM Unit :=
  transaction do
    products.forM insertProduct
    commit

def createProduct (product : Product) : DbM Int := do
  resetStatement (.write .createProduct)
  bindProduct (.write .createProduct) product
  exec .createProduct
  getLastInsertRowid

def getProduct (productId : Int) : DbM (Option Product) := do
  resetStatement (.read .selectProductById)
  bind (.read .selectProductById) 1 (.integer productId)
  let row ← executeStep .selectProductById
  return row.map readProduct

def updateProduct (productId : Int) (product : Product) : DbM Bool := do
  resetStatement (.write .updateProductById)
  bindProduct (.write .updateProductById) product
  bind (.write .updateProductById) 6 (.integer productId)
  exec .updateProductById
  return (← getChanges) == 1

def deleteProduct (productId : Int) : DbM Bool := do
  resetStatement (.write .deleteProductById)
  bind (.write .deleteProductById) 1 (.integer productId)
  exec .deleteProductById
  return (← getChanges) == 1

def getAllProducts : DbM (List Product) := do
  resetStatement (.read .selectAllProducts)
  whileExecuteStep .selectAllProducts (fun products row => products ++ [readProduct row]) []

/-! ## Recipes -/

def getRecipeIngredients (recipeId : Int) : DbM (List Product) := do
  resetStatement (.read .selectRecipeIngredientsByRecipeId)
  bind (.read .selectRecipeIngredientsByRecipeId) 1 (.integer recipeId)
  whileExecuteStep .selectRecipeIngredientsByRecipeId
    (fun ingredients row => ingredients ++ [readIngredient row 0]) []

def insertIngredient (recipeId : Int) (ingredient : Product) : DbM Unit := do
  resetStatement (.write .insertRecipeIngredient)
  bind (.write .insertRecipeIngredient) 1 (.integer recipeId)
  bind (.write .insertRecipeIngredient) 2 (.text ingredient.name)
  bind (.write .insertRecipeIngredient) 3 (.integer ingredient.dimension.code)
  bind (.write .insertRecipeIngredient) 4 (.integer ingredient.amount.toInt)
  exec .insertRecipeIngredient

def replaceRecipeIngredients (recipeId : Int) (recipe : Recipe) : DbM Unit := do
  resetStatement (.write .deleteRecipeIngredientsByRecipeId)
  bind (.write .deleteRecipeIngredientsByRecipeId) 1 (.integer recipeId)
  exec .deleteRecipeIngredientsByRecipeId
  recipe.ingredients.forM (insertIngredient recipeId)

def insertRecipe (recipe : Recipe) : DbM Unit :=
  transaction do
    resetStatement (.write .insertRecipeIfAbsent)
    bind (.write .insertRecipeIfAbsent) 1 (.text recipe.name)
    exec .insertRecipeIfAbsent
    resetStatement (.read .selectRecipeIdByName)
    bind (.read .selectRecipeIdByName) 1 (.text recipe.name)
    match ← executeStep .selectRecipeIdByName with
    | none => throw (.runtimeError "Failed to retrieve recipe id after insert")
    | some row =>
        let recipeId := (getColumn row 0).getInt64
        replaceRecipeIngredients recipeId recipe
        commit

/-- The loop repeats the body of `InsertRecipe` inside one transaction. -/
def insertRecipes (recipes : List Recipe) : DbM Unit :=
  transaction do
    recipes.forM fun recipe => do
      resetStatement (.write .insertRecipeIfAbsent)
      bind (.write .insertRecipeIfAbsent) 1 (.text recipe.name)
      exec .insertRecipeIfAbsent
      resetStatement (.read .selectRecipeIdByName)
      bind (.read .selectRecipeIdByName) 1 (.text recipe.name)
      match ← executeStep .selectRecipeIdByName with
      | none => throw (.runtimeError "Failed to retrieve recipe id after insert")
      | some row => replaceRecipeIngredients (getColumn row 0).getInt64 recipe
    commit

def createRecipe (recipe : Recipe) : DbM Int :=
  transaction do
    resetStatement (.write .createRecipe)
    bind (.write .createRecipe) 1 (.text recipe.name)
    exec .createRecipe
    let recipeId ← getLastInsertRowid
    replaceRecipeIngredients recipeId recipe
    commit
    return recipeId

/-- The early `return false` leaves the block without a commit. -/
def updateRecipe (recipeId : Int) (recipe : Recipe) : DbM Bool :=
  transaction do
    resetStatement (.write .updateRecipeNameById)
    bind (.write .updateRecipeNameById) 1 (.text recipe.name)
    bind (.write .updateRecipeNameById) 2 (.integer recipeId)
    exec .updateRecipeNameById
    if (← getChanges) != 1 then
      return false
    replaceRecipeIngredients recipeId recipe
    commit
    return true

def deleteRecipe (recipeId : Int) : DbM Bool := do
  resetStatement (.write .deleteRecipeById)
  bind (.write .deleteRecipeById) 1 (.integer recipeId)
  exec .deleteRecipeById
  return (← getChanges) == 1

/-! ## Regrouping joined rows -/

/-- The locals of the loop in `FetchRecipes`. -/
structure Fetching where
  recipes : List Recipe := []
  currentId : Int := -1
  deriving DecidableEq, Repr

/-- `recipes.back().AddIngredient(ingredient)`. -/
def addToLast (ingredient : Product) : List Recipe → List Recipe
  | [] => []
  | [recipe] => [recipe.addIngredient ingredient]
  | recipe :: next :: rest => recipe :: addToLast ingredient (next :: rest)

/-- One turn of the loop: a new id opens a new recipe, and a row with an ingredient adds it to the
recipe opened last. -/
def fetchRow (fetching : Fetching) (row : Row) : Fetching :=
  let recipeId := (getColumn row 0).getInt64
  let opened :=
    if recipeId != fetching.currentId then
      { recipes := fetching.recipes ++
          [{ name := (getColumn row 1).getString, id := some recipeId }]
        currentId := recipeId }
    else fetching
  if (getColumn row 2).isNull then opened
  else { opened with recipes := addToLast (readIngredient row 2) opened.recipes }

def fetchRecipes (r : Read) (recipeId : Option Int) : DbM (List Recipe) := do
  resetStatement (.read r)
  match recipeId with
  | some recipeId => bind (.read r) 1 (.integer recipeId)
  | none => pure ()
  let fetching ← whileExecuteStep r fetchRow {}
  return fetching.recipes

def getRecipe (recipeId : Int) : DbM (Option Recipe) := do
  let recipes ← fetchRecipes .selectRecipeByIdWithIngredients (some recipeId)
  return recipes.head?

def getAllRecipes : DbM (List Recipe) := fetchRecipes .selectAllRecipesWithIngredients none

def getCookableRecipes : DbM (List Recipe) :=
  fetchRecipes .selectCookableRecipesWithIngredients none

end DBManager

/-! ## Operations -/

inductive Operation where
  | insertProduct (product : Product)
  | insertProducts (products : List Product)
  | createProduct (product : Product)
  | getProduct (productId : Int)
  | updateProduct (productId : Int) (product : Product)
  | deleteProduct (productId : Int)
  | insertRecipe (recipe : Recipe)
  | insertRecipes (recipes : List Recipe)
  | createRecipe (recipe : Recipe)
  | getRecipe (recipeId : Int)
  | updateRecipe (recipeId : Int) (recipe : Recipe)
  | deleteRecipe (recipeId : Int)
  | getAllProducts
  | getAllRecipes
  | getCookableRecipes
  | getRecipeIngredients (recipeId : Int)
  deriving DecidableEq, Repr

/-- What an operation returns. -/
inductive Returned where
  | unit
  | id (id : Int)
  | bool (b : Bool)
  | product (product : Option Product)
  | products (products : List Product)
  | recipe (recipe : Option Recipe)
  | recipes (recipes : List Recipe)
  deriving DecidableEq, Repr

def Operation.run : Operation → DbM Returned
  | .insertProduct product => do DBManager.insertProduct product; return .unit
  | .insertProducts products => do DBManager.insertProducts products; return .unit
  | .createProduct product => .id <$> DBManager.createProduct product
  | .getProduct productId => .product <$> DBManager.getProduct productId
  | .updateProduct productId product => .bool <$> DBManager.updateProduct productId product
  | .deleteProduct productId => .bool <$> DBManager.deleteProduct productId
  | .insertRecipe recipe => do DBManager.insertRecipe recipe; return .unit
  | .insertRecipes recipes => do DBManager.insertRecipes recipes; return .unit
  | .createRecipe recipe => .id <$> DBManager.createRecipe recipe
  | .getRecipe recipeId => .recipe <$> DBManager.getRecipe recipeId
  | .updateRecipe recipeId recipe => .bool <$> DBManager.updateRecipe recipeId recipe
  | .deleteRecipe recipeId => .bool <$> DBManager.deleteRecipe recipeId
  | .getAllProducts => .products <$> DBManager.getAllProducts
  | .getAllRecipes => .recipes <$> DBManager.getAllRecipes
  | .getCookableRecipes => .recipes <$> DBManager.getCookableRecipes
  | .getRecipeIngredients recipeId => .products <$> DBManager.getRecipeIngredients recipeId

/-- The operations that write. -/
def Operation.mutates : Operation → Bool
  | .insertProduct _ | .insertProducts _ | .createProduct _ | .updateProduct _ _
  | .deleteProduct _ | .insertRecipe _ | .insertRecipes _ | .createRecipe _
  | .updateRecipe _ _ | .deleteRecipe _ => true
  | _ => false

end RecipesCore.Db
