import Mathlib.Algebra.Group.Int.Defs
import Mathlib.Data.String.Basic
import Mathlib.Order.WithBot
import RecipesCore.Relational.Join
import RecipesCore.Relational.Table
import RecipesCore.Sqlite.Value

/-!
# The schema and the prepared statements

The three tables and the meaning of each SQL text of `types::PreparedStatements`, under its name.
A writing statement maps the database to the database after it, or to the error it raises; a failed
statement leaves nothing behind because its result carries no database. A `SELECT` maps the tables
to the rows it returns, in order.

`AUTOINCREMENT` promises an id above every earlier one and no more, so how many ids are skipped
(`gap`) is left open. Every insert attempt moves `sqlite_sequence`, also one that ends in
`DO UPDATE` or `OR IGNORE`.
-/

namespace RecipesCore.Types

open RecipesCore.Relational
open RecipesCore.Sqlite

/-! ## Tables -/

structure ProductRow where
  id : Int
  name : String
  dimension : Int
  amountBase : Int
  manufactureDate : Option String
  expirationDate : Option String
  deriving DecidableEq, Repr

structure RecipeRow where
  id : Int
  name : String
  deriving DecidableEq, Repr

/-- `recipe_ingredients` has a composite primary key, so SQLite numbers its rows on its own. -/
structure IngredientRow where
  rowid : Int
  recipeId : Int
  productName : String
  dimension : Int
  requiredAmountBase : Int
  deriving DecidableEq, Repr

structure Tables where
  products : List ProductRow := []
  recipes : List RecipeRow := []
  recipeIngredients : List IngredientRow := []
  deriving DecidableEq, Repr

/-- `sqlite_sequence`: the highest id each `AUTOINCREMENT` table has used. -/
structure Sequences where
  products : Int := 0
  recipes : Int := 0
  deriving DecidableEq, Repr

/-- What a statement reads and writes. The last two fields belong to the connection: the rowid of
the last insert and the number of rows the last statement changed itself. -/
structure Database where
  tables : Tables := {}
  sequences : Sequences := {}
  lastInsertRowid : Int := 0
  changes : Nat := 0
  deriving DecidableEq, Repr

/-- The conflict target `UNIQUE(name, dimension)`. -/
def ProductRow.key (row : ProductRow) : String × Int := (row.name, row.dimension)

/-- The conflict target `PRIMARY KEY(recipe_id, product_name, dimension)`. -/
def IngredientRow.key (row : IngredientRow) : Int × String × Int :=
  (row.recipeId, row.productName, row.dimension)

/-- The upsert's `DO UPDATE SET amount_base = excluded.amount_base, …`. -/
def ProductRow.setExcluded (excluded row : ProductRow) : ProductRow :=
  { row with
    amountBase := excluded.amountBase
    manufactureDate := excluded.manufactureDate
    expirationDate := excluded.expirationDate }

/-- `SELECT id, name, dimension, amount_base, manufacture_date, expiration_date`. -/
def ProductRow.columns (row : ProductRow) : Row :=
  [.integer row.id, .text row.name, .integer row.dimension, .integer row.amountBase,
    .ofNullable .text row.manufactureDate, .ofNullable .text row.expirationDate]

namespace PreparedStatements

/-! ## Constraint errors -/

def notNullFailed (column : String) : SqliteException :=
  ⟨.constraintNotNull, "NOT NULL constraint failed: " ++ column⟩

def checkFailed (condition : String) : SqliteException :=
  ⟨.constraintCheck, "CHECK constraint failed: " ++ condition⟩

def uniqueFailed (columns : String) : SqliteException :=
  ⟨.constraintUnique, "UNIQUE constraint failed: " ++ columns⟩

def foreignKeyFailed : SqliteException :=
  ⟨.constraintForeignKey, "FOREIGN KEY constraint failed"⟩

def sequenceFull : SqliteException := ⟨.full, "database or disk is full"⟩

/-- The id of the next row of an `AUTOINCREMENT` table. -/
def nextId (last : Int) (gap : Nat) : Except SqliteException Int :=
  if last + 1 + gap < 2 ^ 63 then .ok (last + 1 + gap) else .error sequenceFull

/-! ## Products -/

/-- The row `VALUES (?, ?, ?, ?, ?)`; `none` when a `NOT NULL` column would be NULL. -/
def boundProduct (id : Int) (params : Bindings) : Option ProductRow :=
  match params 1, params 2, params 3 with
  | .text name, .integer dimension, .integer amount =>
      some { id, name, dimension, amountBase := amount,
             manufactureDate := (params 4).nullableText,
             expirationDate := (params 5).nullableText }
  | _, _, _ => none

/-- The upsert sets `lastInsertRowid` only when it really inserts. -/
def kInsertProduct (params : Bindings) (gap : Nat) (db : Database) :
    Except SqliteException Database := do
  let id ← nextId db.sequences.products gap
  match boundProduct id params with
  | none => .error (notNullFailed "products.name")
  | some row =>
      if row.amountBase < 0 then .error (checkFailed "amount_base >= 0")
      else
        let conflict := fun other : ProductRow => decide (other.key = row.key)
        .ok { tables := { db.tables with
                products := upsert conflict (ProductRow.setExcluded row) row db.tables.products }
              sequences := { db.sequences with products := id }
              lastInsertRowid :=
                if db.tables.products.any conflict then db.lastInsertRowid else id
              changes := 1 }

def kCreateProduct (params : Bindings) (gap : Nat) (db : Database) :
    Except SqliteException Database := do
  let id ← nextId db.sequences.products gap
  match boundProduct id params with
  | none => .error (notNullFailed "products.name")
  | some row =>
      if row.amountBase < 0 then .error (checkFailed "amount_base >= 0")
      else if db.tables.products.any fun other => decide (other.key = row.key) then
        .error (uniqueFailed "products.name, products.dimension")
      else
        .ok { tables := { db.tables with products := db.tables.products ++ [row] }
              sequences := { db.sequences with products := id }
              lastInsertRowid := id
              changes := 1 }

/-- `UPDATE products SET … WHERE id = ?`: the constraints are checked for the rows it changes, so
an id that is not stored raises no error. -/
def kUpdateProductById (params : Bindings) (_gap : Nat) (db : Database) :
    Except SqliteException Database :=
  let selected := fun row : ProductRow => (Value.eq (.integer row.id) (params 6)).holds
  if db.tables.products.any selected then
    match boundProduct 0 params with
    | none => .error (notNullFailed "products.name")
    | some new =>
        if new.amountBase < 0 then .error (checkFailed "amount_base >= 0")
        else if db.tables.products.any fun other =>
            !selected other && decide (other.key = new.key) then
          .error (uniqueFailed "products.name, products.dimension")
        else
          .ok { db with
            tables := { db.tables with
              products :=
                updateWhere selected (fun row => { new with id := row.id }) db.tables.products }
            changes := db.tables.products.countP selected }
  else .ok { db with changes := 0 }

def kDeleteProductById (params : Bindings) (_gap : Nat) (db : Database) :
    Except SqliteException Database :=
  let selected := fun row : ProductRow => (Value.eq (.integer row.id) (params 1)).holds
  .ok { db with
    tables := { db.tables with products := deleteWhere selected db.tables.products }
    changes := db.tables.products.countP selected }

def kSelectAllProducts (_params : Bindings) (tables : Tables) : List Row :=
  (orderBy (fun row : ProductRow => row.amountBase) tables.products).map ProductRow.columns

def kSelectProductById (params : Bindings) (tables : Tables) : List Row :=
  (tables.products.filter fun row => (Value.eq (.integer row.id) (params 1)).holds).map
    ProductRow.columns

/-! ## Recipes -/

/-- `INSERT OR IGNORE`: a name that is already there, or a NULL, drops the row without an error. -/
def kInsertRecipeIfAbsent (params : Bindings) (gap : Nat) (db : Database) :
    Except SqliteException Database := do
  let id ← nextId db.sequences.recipes gap
  let sequences := { db.sequences with recipes := id }
  match params 1 with
  | .text name =>
      if db.tables.recipes.any fun other => decide (other.name = name) then
        .ok { db with sequences, changes := 0 }
      else
        .ok { tables := { db.tables with recipes := db.tables.recipes ++ [{ id, name }] }
              sequences
              lastInsertRowid := id
              changes := 1 }
  | _ => .ok { db with sequences, changes := 0 }

def kCreateRecipe (params : Bindings) (gap : Nat) (db : Database) :
    Except SqliteException Database := do
  let id ← nextId db.sequences.recipes gap
  match params 1 with
  | .text name =>
      if db.tables.recipes.any fun other => decide (other.name = name) then
        .error (uniqueFailed "recipes.name")
      else
        .ok { tables := { db.tables with recipes := db.tables.recipes ++ [{ id, name }] }
              sequences := { db.sequences with recipes := id }
              lastInsertRowid := id
              changes := 1 }
  | _ => .error (notNullFailed "recipes.name")

def kSelectRecipeIdByName (params : Bindings) (tables : Tables) : List Row :=
  (tables.recipes.filter fun row => (Value.eq (.text row.name) (params 1)).holds).map
    fun row => [.integer row.id]

def kUpdateRecipeNameById (params : Bindings) (_gap : Nat) (db : Database) :
    Except SqliteException Database :=
  let selected := fun row : RecipeRow => (Value.eq (.integer row.id) (params 2)).holds
  if db.tables.recipes.any selected then
    match params 1 with
    | .text name =>
        if db.tables.recipes.any fun other => !selected other && decide (other.name = name) then
          .error (uniqueFailed "recipes.name")
        else
          .ok { db with
            tables := { db.tables with
              recipes := updateWhere selected (fun row => { row with name }) db.tables.recipes }
            changes := db.tables.recipes.countP selected }
    | _ => .error (notNullFailed "recipes.name")
  else .ok { db with changes := 0 }

/-- `ON DELETE CASCADE` takes the ingredient rows along; `changes` counts the recipe rows only. -/
def kDeleteRecipeById (params : Bindings) (_gap : Nat) (db : Database) :
    Except SqliteException Database :=
  let selected := fun row : RecipeRow => (Value.eq (.integer row.id) (params 1)).holds
  .ok { db with
    tables := { db.tables with
      recipes := deleteWhere selected db.tables.recipes
      recipeIngredients := deleteWhere
        (fun row => (Value.eq (.integer row.recipeId) (params 1)).holds &&
          db.tables.recipes.any selected) db.tables.recipeIngredients }
    changes := db.tables.recipes.countP selected }

/-! ## Ingredients -/

def kDeleteRecipeIngredientsByRecipeId (params : Bindings) (_gap : Nat) (db : Database) :
    Except SqliteException Database :=
  let selected := fun row : IngredientRow => (Value.eq (.integer row.recipeId) (params 1)).holds
  .ok { db with
    tables := { db.tables with
      recipeIngredients := deleteWhere selected db.tables.recipeIngredients }
    changes := db.tables.recipeIngredients.countP selected }

/-- The rowid of a new row of a table without `AUTOINCREMENT`. -/
def nextRowid (rows : List IngredientRow) : Int :=
  rows.foldl (fun top row => max top row.rowid) 0 + 1

def boundIngredient (rowid : Int) (params : Bindings) : Option IngredientRow :=
  match params 1, params 2, params 3, params 4 with
  | .integer recipeId, .text productName, .integer dimension, .integer amount =>
      some { rowid, recipeId, productName, dimension, requiredAmountBase := amount }
  | _, _, _, _ => none

def kInsertRecipeIngredient (params : Bindings) (_gap : Nat) (db : Database) :
    Except SqliteException Database :=
  let rows := db.tables.recipeIngredients
  match boundIngredient (nextRowid rows) params with
  | none => .error (notNullFailed "recipe_ingredients.product_name")
  | some row =>
      if row.requiredAmountBase < 0 then .error (checkFailed "required_amount_base >= 0")
      else
        let conflict := fun other : IngredientRow => decide (other.key = row.key)
        if rows.any conflict then
          .ok { db with
            tables := { db.tables with
              recipeIngredients := updateWhere conflict
                (fun other => { other with requiredAmountBase := row.requiredAmountBase }) rows }
            changes := 1 }
        else if db.tables.recipes.any fun recipe => decide (recipe.id = row.recipeId) then
          .ok { db with
            tables := { db.tables with recipeIngredients := rows ++ [row] }
            lastInsertRowid := row.rowid
            changes := 1 }
        else .error foreignKeyFailed

/-- `ORDER BY ri.product_name, ri.dimension`; NULLs come first. -/
def ingredientOrder (row : Option IngredientRow) : WithBot String ×ₗ WithBot Int :=
  toLex ((row.map fun r => r.productName : Option String), (row.map fun r => r.dimension : Option Int))

def kSelectRecipeIngredientsByRecipeId (params : Bindings) (tables : Tables) : List Row :=
  (orderBy (fun row => ingredientOrder (some row))
    (tables.recipeIngredients.filter fun row =>
      (Value.eq (.integer row.recipeId) (params 1)).holds)).map
    fun row => [.text row.productName, .integer row.dimension, .integer row.requiredAmountBase]

/-- `recipes r LEFT JOIN recipe_ingredients ri ON ri.recipe_id = r.id`. -/
def recipesWithIngredients (tables : Tables) : List (RecipeRow × Option IngredientRow) :=
  leftJoin (fun r ri => decide (ri.recipeId = r.id)) tables.recipes tables.recipeIngredients

/-- `SELECT r.id, r.name, ri.product_name, ri.dimension, ri.required_amount_base`. -/
def joinedColumns (row : RecipeRow × Option IngredientRow) : Row :=
  [.integer row.1.id, .text row.1.name,
    .ofNullable (fun ri => .text ri.productName) row.2,
    .ofNullable (fun ri => .integer ri.dimension) row.2,
    .ofNullable (fun ri => .integer ri.requiredAmountBase) row.2]

def kSelectAllRecipesWithIngredients (_params : Bindings) (tables : Tables) : List Row :=
  (orderBy (joinKey (fun r : RecipeRow => r.name) ingredientOrder)
    (recipesWithIngredients tables)).map joinedColumns

def kSelectRecipeByIdWithIngredients (params : Bindings) (tables : Tables) : List Row :=
  (orderBy (fun row : RecipeRow × Option IngredientRow => ingredientOrder row.2)
    ((recipesWithIngredients tables).filter fun row =>
      (Value.eq (.integer row.1.id) (params 1)).holds)).map joinedColumns

/-- The condition of the inner `SELECT 1`: an ingredient of `r` that is not in stock, or of which
there is too little. For a product that is missing, `p.amount_base < …` is unknown. -/
def lacking (r : RecipeRow) (row : IngredientRow × Option ProductRow) : Truth :=
  (Value.eq (.integer row.1.recipeId) (.integer r.id)).and
    (Truth.or (some (Value.ofNullable (fun p => .integer p.id) row.2).isNull)
      (Value.lt (.ofNullable (fun p => .integer p.amountBase) row.2)
        (.integer row.1.requiredAmountBase)))

/-- `recipe_ingredients ri2 LEFT JOIN products p ON p.name = … AND p.dimension = …`. -/
def ingredientsWithStock (tables : Tables) : List (IngredientRow × Option ProductRow) :=
  leftJoin (fun ri p => decide (p.name = ri.productName) && decide (p.dimension = ri.dimension))
    tables.recipeIngredients tables.products

def kSelectCookableRecipesWithIngredients (_params : Bindings) (tables : Tables) : List Row :=
  (orderBy (joinKey (fun r : RecipeRow => r.name) ingredientOrder)
    ((recipesWithIngredients tables).filter fun row =>
      notExists (fun x => (lacking row.1 x).holds) (ingredientsWithStock tables))).map joinedColumns

end PreparedStatements

end RecipesCore.Types
