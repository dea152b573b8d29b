import RecipesCore.Db.Calls

/-!
# What each writing statement does with an operation's values

The SQL of `Types/SQL.lean` applied to the values the operations bind: when it succeeds, and which
database it leaves. These are the only facts about the statements that the invariants use.
-/

namespace RecipesCore.Db

open RecipesCore.Relational
open RecipesCore.Sqlite
open RecipesCore.Types
open RecipesCore.Types.PreparedStatements

/-- The row of a product. -/
def productRow (id : Int) (product : Product) : ProductRow :=
  { id
    name := product.name
    dimension := product.dimension.code
    amountBase := product.amount.toInt
    manufactureDate := product.dates.manufacture.map toDateString
    expirationDate := product.dates.expiration.map toDateString }

def ingredientRow (rowid recipeId : Int) (ingredient : Product) : IngredientRow :=
  { rowid
    recipeId
    productName := ingredient.name
    dimension := ingredient.dimension.code
    requiredAmountBase := ingredient.amount.toInt }

/-- The key a product is unique under. -/
def productKey (product : Product) : String × Int := (product.name, product.dimension.code)

/-- A product's row is unique under the product's key. -/
@[simp] theorem productRow_key (id : Int) (product : Product) :
    (productRow id product).key = productKey product := rfl
@[simp] theorem productRow_id (id : Int) (product : Product) : (productRow id product).id = id :=
  rfl

/-- An ingredient's row is unique under the key of the ingredient within its recipe. -/
@[simp] theorem ingredientRow_key (rowid recipeId : Int) (ingredient : Product) :
    (ingredientRow rowid recipeId ingredient).key = (recipeId, productKey ingredient) := rfl

/-- An upsert keeps the key of the row that it meets, and the id. -/
@[simp] theorem setExcluded_key (excluded row : ProductRow) :
    (ProductRow.setExcluded excluded row).key = row.key := rfl
@[simp] theorem setExcluded_id (excluded row : ProductRow) :
    (ProductRow.setExcluded excluded row).id = row.id := rfl

/-- A date that is bound comes out as its text, and no date as no text. -/
theorem nullableText_map (date : Option SysDays) :
    (Value.ofNullable (fun d => .text (toDateString d)) date).nullableText
      = date.map toDateString := by
  cases date <;> rfl

/-- What an operation binds for a product is what the `INSERT` makes the product's row of. -/
theorem boundProduct_productValues (id : Int) (product : Product) (rest : List Value) :
    boundProduct id (params (productValues product ++ rest)) = some (productRow id product) := by
  simp [boundProduct, params, productValues, productRow, nullableText_map]

/-- The same for an ingredient. -/
theorem boundIngredient_ingredientValues (rowid recipeId : Int) (ingredient : Product) :
    boundIngredient rowid (params (ingredientValues recipeId ingredient)) =
      some (ingredientRow rowid recipeId ingredient) := rfl

/-- A new id lies past the last one, and there is one only while it fits into 63 bits. -/
theorem nextId_eq_ok {last id : Int} {gap : Nat} :
    nextId last gap = .ok id ↔ id = last + 1 + gap ∧ id < 2 ^ 63 := by
  unfold nextId
  split
  · next h =>
      simp only [Except.ok.injEq]
      constructor
      · rintro rfl
        exact ⟨rfl, h⟩
      · rintro ⟨rfl, -⟩
        rfl
  · next h =>
      simp only [reduceCtorEq, false_iff, not_and]
      rintro rfl
      exact h

/-- No id is given out twice. -/
theorem nextId_gt {last id : Int} {gap : Nat} (h : nextId last gap = .ok id) : last < id := by
  obtain ⟨rfl, -⟩ := nextId_eq_ok.mp h
  omega

theorem except_bind_eq_ok {ε α β : Type} {x : Except ε α} {f : α → Except ε β} {b : β} :
    Bind.bind x f = .ok b ↔ ∃ a, x = .ok a ∧ f a = .ok b := by
  cases x <;> simp [Bind.bind, Except.bind]

theorem ite_eq_ok {ε α : Type} {c : Prop} [Decidable c] {x y : Except ε α} {a : α} :
    (if c then x else y) = .ok a ↔ (c ∧ x = .ok a) ∨ (¬ c ∧ y = .ok a) := by
  by_cases hc : c <;> simp [hc]

theorem any_decide_iff {α : Type} {rows : List α} {p : α → Prop} [DecidablePred p] :
    (rows.any fun row => decide (p row)) = true ↔ ∃ row ∈ rows, p row := by
  simp

section

variable {gap : Nat} {db db' : Database} {product : Product} {recipeId productId : Int}
  {name : String}

/-! ## Products -/

/-- The upsert: the row with the product's key takes its amount and dates, and without one a row
with a new id is appended. The id is used up either way. -/
theorem insertProduct_effect :
    Write.insertProduct.sql (params (productValues product)) gap db = .ok db' ↔
      ∃ id, nextId db.sequences.products gap = .ok id ∧ 0 ≤ product.amount.toInt ∧
        db' =
          { tables := { db.tables with
              products := upsert (fun other => decide (other.key = productKey product))
                (ProductRow.setExcluded (productRow id product)) (productRow id product)
                db.tables.products }
            sequences := { db.sequences with products := id }
            lastInsertRowid :=
              if db.tables.products.any fun other => decide (other.key = productKey product)
              then db.lastInsertRowid else id
            changes := 1 } := by
  have hb := fun id => boundProduct_productValues id product []
  rw [List.append_nil] at hb
  simp only [Write.sql, kInsertProduct, except_bind_eq_ok, hb, ite_eq_ok, reduceCtorEq, and_false,
    false_or, Except.ok.injEq]
  exact exists_congr fun id => and_congr_right fun _ => and_congr not_lt eq_comm

/-- A product is created under a free key only, as the last row. -/
theorem createProduct_effect :
    Write.createProduct.sql (params (productValues product)) gap db = .ok db' ↔
      ∃ id, nextId db.sequences.products gap = .ok id ∧ 0 ≤ product.amount.toInt ∧
        (∀ other ∈ db.tables.products, other.key ≠ productKey product) ∧
        db' =
          { tables := { db.tables with
              products := db.tables.products ++ [productRow id product] }
            sequences := { db.sequences with products := id }
            lastInsertRowid := id
            changes := 1 } := by
  have hb := fun id => boundProduct_productValues id product []
  rw [List.append_nil] at hb
  simp only [Write.sql, kCreateProduct, except_bind_eq_ok, hb, ite_eq_ok, reduceCtorEq, and_false,
    false_or, Except.ok.injEq, any_decide_iff, not_exists, not_and]
  exact exists_congr fun id => and_congr_right fun _ =>
    and_congr not_lt (and_congr_right fun _ => eq_comm)

/-- Without a row with the id nothing changes; with one it becomes the product's row, unless another
row has the product's key. -/
theorem updateProduct_effect :
    Write.updateProductById.sql (params (productValues product ++ [.integer productId])) gap db
        = .ok db' ↔
      ((∀ row ∈ db.tables.products, row.id ≠ productId) ∧ db' = { db with changes := 0 }) ∨
      ((∃ row ∈ db.tables.products, row.id = productId) ∧ 0 ≤ product.amount.toInt ∧
        (∀ other ∈ db.tables.products, other.id ≠ productId → other.key ≠ productKey product) ∧
        db' = { db with
          tables := { db.tables with
            products := updateWhere (fun row => decide (row.id = productId))
              (fun row => productRow row.id product) db.tables.products }
          changes := db.tables.products.countP fun row => decide (row.id = productId) }) := by
  have hb := boundProduct_productValues 0 product [.integer productId]
  have hp6 : params (productValues product ++ [.integer productId]) 6 = .integer productId := rfl
  simp only [Write.sql, kUpdateProductById, hb, hp6, Value.eq_integer, ite_eq_ok, reduceCtorEq,
    and_false, false_or, Except.ok.injEq, List.any_eq_true, Bool.and_eq_true,
    Bool.not_eq_true', decide_eq_false_iff_not, decide_eq_true_eq, not_exists, not_and]
  rw [or_comm]
  exact or_congr (and_congr_right fun _ => eq_comm) (and_congr_right fun _ =>
    and_congr not_lt (and_congr_right fun _ => eq_comm))

/-- The rows with the id are deleted and counted; that there is none is no error. -/
theorem deleteProduct_effect :
    Write.deleteProductById.sql (params [.integer productId]) gap db = .ok db' ↔
      db' = { db with
        tables := { db.tables with
          products := deleteWhere (fun row => decide (row.id = productId)) db.tables.products }
        changes := db.tables.products.countP fun row => decide (row.id = productId) } := by
  have hp1 : params [.integer productId] 1 = .integer productId := rfl
  simp only [Write.sql, kDeleteProductById, hp1, Value.eq_integer, Except.ok.injEq]
  exact eq_comm

/-! ## Recipes -/

/-- A recipe whose name is stored stays as it is, though the id is used up. -/
theorem insertRecipeIfAbsent_effect :
    Write.insertRecipeIfAbsent.sql (params [.text name]) gap db = .ok db' ↔
      ∃ id, nextId db.sequences.recipes gap = .ok id ∧
        (((∃ other ∈ db.tables.recipes, other.name = name) ∧
            db' = { db with sequences := { db.sequences with recipes := id }, changes := 0 }) ∨
          ((∀ other ∈ db.tables.recipes, other.name ≠ name) ∧
            db' =
              { tables := { db.tables with recipes := db.tables.recipes ++ [{ id, name }] }
                sequences := { db.sequences with recipes := id }
                lastInsertRowid := id
                changes := 1 })) := by
  have hp1 : params [.text name] 1 = .text name := rfl
  simp only [Write.sql, kInsertRecipeIfAbsent, except_bind_eq_ok, hp1, ite_eq_ok, Except.ok.injEq,
    any_decide_iff, not_exists, not_and]
  exact exists_congr fun id => and_congr_right fun _ =>
    or_congr (and_congr_right fun _ => eq_comm) (and_congr_right fun _ => eq_comm)

/-- A recipe is created under a free name only, as the last row. -/
theorem createRecipe_effect :
    Write.createRecipe.sql (params [.text name]) gap db = .ok db' ↔
      ∃ id, nextId db.sequences.recipes gap = .ok id ∧
        (∀ other ∈ db.tables.recipes, other.name ≠ name) ∧
        db' =
          { tables := { db.tables with recipes := db.tables.recipes ++ [{ id, name }] }
            sequences := { db.sequences with recipes := id }
            lastInsertRowid := id
            changes := 1 } := by
  have hp1 : params [.text name] 1 = .text name := rfl
  simp only [Write.sql, kCreateRecipe, except_bind_eq_ok, hp1, ite_eq_ok, reduceCtorEq, and_false,
    false_or, Except.ok.injEq, any_decide_iff, not_exists, not_and]
  exact exists_congr fun id => and_congr_right fun _ => and_congr_right fun _ => eq_comm

/-- Without a row with the id nothing changes; with one it takes the name, unless another row has
it. -/
theorem updateRecipeName_effect :
    Write.updateRecipeNameById.sql (params [.text name, .integer recipeId]) gap db = .ok db' ↔
      ((∀ row ∈ db.tables.recipes, row.id ≠ recipeId) ∧ db' = { db with changes := 0 }) ∨
      ((∃ row ∈ db.tables.recipes, row.id = recipeId) ∧
        (∀ other ∈ db.tables.recipes, other.id ≠ recipeId → other.name ≠ name) ∧
        db' = { db with
          tables := { db.tables with
            recipes := updateWhere (fun row => decide (row.id = recipeId))
              (fun row => { row with name }) db.tables.recipes }
          changes := db.tables.recipes.countP fun row => decide (row.id = recipeId) }) := by
  have hp1 : params [.text name, .integer recipeId] 1 = .text name := rfl
  have hp2 : params [.text name, .integer recipeId] 2 = .integer recipeId := rfl
  simp only [Write.sql, kUpdateRecipeNameById, hp1, hp2, Value.eq_integer, ite_eq_ok, reduceCtorEq,
    and_false, false_or, Except.ok.injEq, List.any_eq_true, Bool.and_eq_true,
    Bool.not_eq_true', decide_eq_false_iff_not, decide_eq_true_eq, not_exists, not_and]
  rw [or_comm]
  exact or_congr (and_congr_right fun _ => eq_comm) (and_congr_right fun _ =>
    and_congr_right fun _ => eq_comm)

/-- The cascade takes exactly the ingredients of the deleted recipe: without one there are none
to take that the condition selects. -/
theorem deleteRecipe_effect :
    Write.deleteRecipeById.sql (params [.integer recipeId]) gap db = .ok db' ↔
      db' = { db with
        tables := { db.tables with
          recipes := deleteWhere (fun row => decide (row.id = recipeId)) db.tables.recipes
          recipeIngredients := deleteWhere
            (fun row => decide (row.recipeId = recipeId) &&
              db.tables.recipes.any fun recipe => decide (recipe.id = recipeId))
            db.tables.recipeIngredients }
        changes := db.tables.recipes.countP fun row => decide (row.id = recipeId) } := by
  have hp1 : params [.integer recipeId] 1 = .integer recipeId := rfl
  simp only [Write.sql, kDeleteRecipeById, hp1, Value.eq_integer, Except.ok.injEq]
  exact eq_comm

/-! ## Ingredients -/

/-- All ingredients of one recipe are deleted, and of no other. -/
theorem deleteRecipeIngredients_effect :
    Write.deleteRecipeIngredientsByRecipeId.sql (params [.integer recipeId]) gap db = .ok db' ↔
      db' = { db with
        tables := { db.tables with
          recipeIngredients := deleteWhere (fun row => decide (row.recipeId = recipeId))
            db.tables.recipeIngredients }
        changes := db.tables.recipeIngredients.countP
          fun row => decide (row.recipeId = recipeId) } := by
  have hp1 : params [.integer recipeId] 1 = .integer recipeId := rfl
  simp only [Write.sql, kDeleteRecipeIngredientsByRecipeId, hp1, Value.eq_integer,
    Except.ok.injEq]
  exact eq_comm

/-- An ingredient that its recipe has already takes the new amount; any other is appended, for which
the recipe has to be stored. -/
theorem insertRecipeIngredient_effect :
    Write.insertRecipeIngredient.sql (params (ingredientValues recipeId product)) gap db
        = .ok db' ↔
      0 ≤ product.amount.toInt ∧
      (((∃ other ∈ db.tables.recipeIngredients,
            other.key = (recipeId, productKey product)) ∧
          db' = { db with
            tables := { db.tables with
              recipeIngredients := updateWhere
                (fun other => decide (other.key = (recipeId, productKey product)))
                (fun other => { other with requiredAmountBase := product.amount.toInt })
                db.tables.recipeIngredients }
            changes := 1 }) ∨
        ((∀ other ∈ db.tables.recipeIngredients,
            other.key ≠ (recipeId, productKey product)) ∧
          (∃ recipe ∈ db.tables.recipes, recipe.id = recipeId) ∧
          db' = { db with
            tables := { db.tables with
              recipeIngredients := db.tables.recipeIngredients ++
                [ingredientRow (nextRowid db.tables.recipeIngredients) recipeId product] }
            lastInsertRowid := nextRowid db.tables.recipeIngredients
            changes := 1 })) := by
  simp only [Write.sql, kInsertRecipeIngredient, boundIngredient_ingredientValues, ite_eq_ok,
    reduceCtorEq, and_false, false_or, or_false, Except.ok.injEq, any_decide_iff, not_exists,
    not_and]
  exact and_congr not_lt (or_congr (and_congr_right fun _ => eq_comm)
    (and_congr_right fun _ => and_congr_right fun _ => eq_comm))

end

end RecipesCore.Db
