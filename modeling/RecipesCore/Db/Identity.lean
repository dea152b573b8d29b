import RecipesCore.Db.Frames

/-!
# What an operation does to a row with a given id

An id is looked at through `productAt` and `recipeAt`, a recipe together with its ingredients. Each
issued write leaves a row of an earlier id as it was, revises it or deletes it, and a row of another
id is above every id counted so far; so do operations, `ProductRevision` and `RecipeRevision` being
the changes they may make.
-/

namespace RecipesCore.Db

open RecipesCore.Logic RecipesCore.Logic.Program
open RecipesCore.Relational
open RecipesCore.Sqlite
open RecipesCore.Types
open DBManager

/-! ## Rows by id -/

section

variable {α : Type} {key : α → Int} {rows : List α} {id : Int} {a : α}

theorem find_id_eq_some (h : (rows.map key).Nodup) :
    (rows.find? fun row => decide (key row = id)) = some a ↔ a ∈ rows ∧ key a = id := by
  constructor
  · intro hfind
    exact ⟨List.mem_of_find?_eq_some hfind, by simpa using List.find?_some hfind⟩
  · rintro ⟨ha, rfl⟩
    rw [← List.head?_filter, filter_key_eq h ha, List.head?_cons]

theorem find_id_eq_none :
    (rows.find? fun row => decide (key row = id)) = none ↔ ∀ row ∈ rows, key row ≠ id := by
  simp

end

def productAt (tables : Tables) (productId : Int) : Option ProductRow :=
  tables.products.find? fun row => decide (row.id = productId)

/-- A recipe row and its ingredient rows. -/
abbrev RecipeRows := RecipeRow × List IngredientRow

def ingredientsOf (tables : Tables) (recipeId : Int) : List IngredientRow :=
  tables.recipeIngredients.filter fun i => decide (i.recipeId = recipeId)

def recipeAt (tables : Tables) (recipeId : Int) : Option RecipeRows :=
  (tables.recipes.find? fun row => decide (row.id = recipeId)).map fun row =>
    (row, ingredientsOf tables recipeId)

section

variable {tables : Tables} {sequences : Sequences} {productId recipeId : Int}

theorem productAt_eq_some (hv : Store.Valid tables sequences) {row : ProductRow} :
    productAt tables productId = some row ↔ row ∈ tables.products ∧ row.id = productId :=
  find_id_eq_some hv.productIds

theorem productAt_eq_none :
    productAt tables productId = none ↔ ∀ row ∈ tables.products, row.id ≠ productId :=
  find_id_eq_none

theorem recipeAt_eq_some (hv : Store.Valid tables sequences) {recipe : RecipeRows} :
    recipeAt tables recipeId = some recipe ↔
      recipe.1 ∈ tables.recipes ∧ recipe.1.id = recipeId ∧
        recipe.2 = ingredientsOf tables recipeId := by
  obtain ⟨row, ingredients⟩ := recipe
  simp only [recipeAt, Option.map_eq_some_iff, find_id_eq_some hv.recipeIds, Prod.mk.injEq]
  constructor
  · rintro ⟨_, ⟨hrow, hid⟩, rfl, rfl⟩
    exact ⟨hrow, hid, rfl⟩
  · rintro ⟨hrow, hid, rfl⟩
    exact ⟨row, ⟨hrow, hid⟩, rfl, rfl⟩

theorem recipeAt_eq_none :
    recipeAt tables recipeId = none ↔ ∀ row ∈ tables.recipes, row.id ≠ recipeId := by
  rw [recipeAt, Option.map_eq_none_iff, find_id_eq_none]

end

/-! ## Revisions -/

/-- The changes an operation may make to a product row: it is updated by its id, or inserted again
under its key. -/
inductive ProductRevision (row : ProductRow) : Operation → ProductRow → Prop where
  | updateProduct (product : Product) :
      ProductRevision row (.updateProduct row.id product) (productRow row.id product)
  | insertProduct {product : Product} : productKey product = row.key →
      ProductRevision row (.insertProduct product) (productRow row.id product)
  | insertProducts {products : List Product} {product : Product} : product ∈ products →
      productKey product = row.key →
      ProductRevision row (.insertProducts products) (productRow row.id product)

/-- The changes an operation may make to a recipe: it is updated by its id, or inserted again under
its name. -/
inductive RecipeRevision (recipe : RecipeRows) : Operation → RecipeRows → Prop where
  | updateRecipe (new : Recipe) (ingredients : List IngredientRow) :
      RecipeRevision recipe (.updateRecipe recipe.1.id new)
        ({ id := recipe.1.id, name := new.name }, ingredients)
  | insertRecipe {op : Operation} {new : Recipe} (ingredients : List IngredientRow) :
      op.Inserts new → new.name = recipe.1.name →
      RecipeRevision recipe op (recipe.1, ingredients)

/-- As it was, or revised. -/
def Became {α : Type} (Revision : α → Operation → α → Prop) (a : α) (op : Operation) (b : α) :
    Prop := b = a ∨ Revision a op b

theorem ProductRevision.id_eq {row row' : ProductRow} {op : Operation}
    (h : ProductRevision row op row') : row'.id = row.id := by
  cases h <;> rfl

theorem RecipeRevision.id_eq {recipe recipe' : RecipeRows} {op : Operation}
    (h : RecipeRevision recipe op recipe') : recipe'.1.id = recipe.1.id := by
  cases h <;> rfl

/-- A revised product has its id, and its key too unless it was updated. -/
theorem ProductRevision.trans {a b c : ProductRow} {op : Operation} (h : ProductRevision a op b)
    (h' : ProductRevision b op c) : ProductRevision a op c := by
  cases h with
  | updateProduct product =>
      cases h'
      exact .updateProduct product
  | insertProduct hkey =>
      cases h'
      exact .insertProduct hkey
  | insertProducts _ hkey =>
      cases h' with
      | insertProducts hmem hkey' => exact .insertProducts hmem (hkey'.trans hkey)

theorem RecipeRevision.trans {a b c : RecipeRows} {op : Operation} (h : RecipeRevision a op b)
    (h' : RecipeRevision b op c) : RecipeRevision a op c := by
  cases h with
  | updateRecipe new ingredients =>
      cases h' with
      | updateRecipe _ ingredients' => exact .updateRecipe new ingredients'
      | insertRecipe ingredients' hinserts _ => exact hinserts.elim
  | insertRecipe ingredients hinserts hname =>
      cases h' with
      | updateRecipe => exact hinserts.elim
      | insertRecipe ingredients' hinserts' hname' => exact .insertRecipe ingredients' hinserts' hname'

theorem Became.trans {α : Type} {Revision : α → Operation → α → Prop} {op : Operation}
    (htrans : ∀ {a b c}, Revision a op b → Revision b op c → Revision a op c) {a b c : α}
    (h : Became Revision a op b) (h' : Became Revision b op c) : Became Revision a op c := by
  rcases h with rfl | h
  · exact h'
  · rcases h' with rfl | h'
    · exact Or.inr h
    · exact Or.inr (htrans h h')

theorem setExcluded_productRow {id : Int} {product : Product} {row : ProductRow}
    (h : productKey product = row.key) :
    ProductRow.setExcluded (productRow id product) row = productRow row.id product := by
  obtain ⟨hname, hdimension⟩ := Prod.mk.inj h
  simp [ProductRow.setExcluded, productRow, hname, hdimension]

/-! ## Single writes -/

theorem Operation.Issues.issued {tables : Tables} {op : Operation} {w : Write}
    {values : List Value} (h : op.Issues tables w values) : Issued {} w values := by
  cases h <;> constructor <;> trivial

section

variable {op : Operation} {w : Write} {values : List Value} {gap : Nat} {db db' : Database}

theorem Operation.Issues.valid (h : op.Issues db.tables w values)
    (hsql : w.sql (params values) gap db = .ok db')
    (hv : Store.Valid db.tables db.sequences) : Store.Valid db'.tables db'.sequences :=
  Store.closed_valid _ h.issued hv hsql

/-- Ids are only counted up. -/
theorem Operation.Issues.sequences_le (h : op.Issues db.tables w values)
    (hsql : w.sql (params values) gap db = .ok db') :
    db.sequences.products ≤ db'.sequences.products ∧
      db.sequences.recipes ≤ db'.sequences.recipes := by
  cases h with
  | insertProduct | insertProducts _ =>
      obtain ⟨id, hid, -, rfl⟩ := insertProduct_effect.mp hsql
      exact ⟨(nextId_gt hid).le, le_rfl⟩
  | createProduct =>
      obtain ⟨id, hid, -, -, rfl⟩ := createProduct_effect.mp hsql
      exact ⟨(nextId_gt hid).le, le_rfl⟩
  | updateProduct =>
      rcases updateProduct_effect.mp hsql with ⟨-, rfl⟩ | ⟨-, -, -, rfl⟩ <;>
        exact ⟨le_rfl, le_rfl⟩
  | deleteProduct =>
      rw [deleteProduct_effect.mp hsql]
      exact ⟨le_rfl, le_rfl⟩
  | insertRecipe _ =>
      obtain ⟨id, hid, ⟨-, rfl⟩ | ⟨-, rfl⟩⟩ := insertRecipeIfAbsent_effect.mp hsql <;>
        exact ⟨le_rfl, (nextId_gt hid).le⟩
  | createRecipe =>
      obtain ⟨id, hid, -, rfl⟩ := createRecipe_effect.mp hsql
      exact ⟨le_rfl, (nextId_gt hid).le⟩
  | updateRecipe =>
      rcases updateRecipeName_effect.mp hsql with ⟨-, rfl⟩ | ⟨-, -, rfl⟩ <;>
        exact ⟨le_rfl, le_rfl⟩
  | deleteRecipe =>
      rw [deleteRecipe_effect.mp hsql]
      exact ⟨le_rfl, le_rfl⟩
  | clear _ =>
      rw [deleteRecipeIngredients_effect.mp hsql]
      exact ⟨le_rfl, le_rfl⟩
  | fill _ _ =>
      obtain ⟨-, ⟨-, rfl⟩ | ⟨-, -, rfl⟩⟩ := insertRecipeIngredient_effect.mp hsql <;>
        exact ⟨le_rfl, le_rfl⟩

theorem upserted_product {id : Int} {product : Product} {rows : List ProductRow} {b : ProductRow}
    (hrevision : ∀ a : ProductRow, productKey product = a.key →
      ProductRevision a op (productRow a.id product))
    (h : b ∈ upsert (fun other => decide (other.key = productKey product))
      (ProductRow.setExcluded (productRow id product)) (productRow id product) rows) :
    b.id = id ∨ ∃ a ∈ rows, a.id = b.id ∧ Became ProductRevision a op b := by
  rcases mem_upsert h with hb | rfl | ⟨a, ha, hkey, rfl⟩
  · exact Or.inr ⟨b, hb, rfl, Or.inl rfl⟩
  · exact Or.inl rfl
  · have hkey := (of_decide_eq_true hkey).symm
    refine Or.inr ⟨a, ha, rfl, Or.inr ?_⟩
    rw [setExcluded_productRow hkey]
    exact hrevision a hkey

/-- A write to the recipes leaves the products. -/
theorem Operation.Issues.products_eq (h : op.Issues db.tables w values)
    (hsql : w.sql (params values) gap db = .ok db') (hw : w.onProducts = false) :
    db'.tables.products = db.tables.products := by
  have hsame := h.otherTables hsql
  rw [← h.onProducts, hw] at hsame
  exact hsame

/-- A write to the products leaves the recipes and their ingredients. -/
theorem Operation.Issues.recipes_eq (h : op.Issues db.tables w values)
    (hsql : w.sql (params values) gap db = .ok db') (hw : w.onProducts = true) :
    db'.tables.recipes = db.tables.recipes ∧
      db'.tables.recipeIngredients = db.tables.recipeIngredients := by
  have hsame := h.otherTables hsql
  rw [← h.onProducts, hw] at hsame
  exact hsame

/-- **A product row after a write** is new, with an id above every earlier one, or is a row from
before, perhaps revised. -/
theorem Operation.Issues.product_from (h : op.Issues db.tables w values)
    (hsql : w.sql (params values) gap db = .ok db') {b : ProductRow}
    (hb : b ∈ db'.tables.products) :
    db.sequences.products < b.id ∨
      ∃ a ∈ db.tables.products, a.id = b.id ∧ Became ProductRevision a op b := by
  have hold : w.onProducts = false → ∃ a ∈ db.tables.products, a.id = b.id ∧
      Became ProductRevision a op b := by
    intro hw
    rw [h.products_eq hsql hw] at hb
    exact ⟨b, hb, rfl, Or.inl rfl⟩
  cases h with
  | insertProduct =>
      obtain ⟨id, hid, -, rfl⟩ := insertProduct_effect.mp hsql
      rcases upserted_product (fun _ => .insertProduct) hb with rfl | hold
      · exact Or.inl (nextId_gt hid)
      · exact Or.inr hold
  | insertProducts hmem =>
      obtain ⟨id, hid, -, rfl⟩ := insertProduct_effect.mp hsql
      rcases upserted_product (fun _ => .insertProducts hmem) hb with rfl | hold
      · exact Or.inl (nextId_gt hid)
      · exact Or.inr hold
  | createProduct =>
      obtain ⟨id, hid, -, -, rfl⟩ := createProduct_effect.mp hsql
      rcases List.mem_append.mp hb with hb | hb
      · exact Or.inr ⟨b, hb, rfl, Or.inl rfl⟩
      · rw [List.mem_singleton.mp hb]
        exact Or.inl (nextId_gt hid)
  | updateProduct =>
      rcases updateProduct_effect.mp hsql with ⟨-, rfl⟩ | ⟨-, -, -, rfl⟩
      · exact Or.inr ⟨b, hb, rfl, Or.inl rfl⟩
      · rcases mem_updateWhere.mp hb with ⟨hb, -⟩ | ⟨a, ha, hid, rfl⟩
        · exact Or.inr ⟨b, hb, rfl, Or.inl rfl⟩
        · obtain rfl := of_decide_eq_true hid
          exact Or.inr ⟨a, ha, rfl, Or.inr (.updateProduct _)⟩
  | deleteProduct =>
      rw [deleteProduct_effect.mp hsql] at hb
      exact Or.inr ⟨b, (mem_deleteWhere.mp hb).1, rfl, Or.inl rfl⟩
  | _ => exact Or.inr (hold rfl)

/-- A row that no delete names keeps its id. -/
theorem Operation.Issues.product_stays (h : op.Issues db.tables w values)
    (hsql : w.sql (params values) gap db = .ok db') {a : ProductRow}
    (ha : a ∈ db.tables.products) (hop : op ≠ .deleteProduct a.id) :
    ∃ b ∈ db'.tables.products, b.id = a.id := by
  have hold : w.onProducts = false → ∃ b ∈ db'.tables.products, b.id = a.id := by
    intro hw
    rw [h.products_eq hsql hw]
    exact ⟨a, ha, rfl⟩
  cases h with
  | insertProduct | insertProducts _ =>
      obtain ⟨id, hid, -, rfl⟩ := insertProduct_effect.mp hsql
      simp only [upsert]
      split
      · exact exists_mem_updateWhere (setExcluded_id _) ha
      · exact ⟨a, List.mem_append_left _ ha, rfl⟩
  | createProduct =>
      obtain ⟨id, hid, -, -, rfl⟩ := createProduct_effect.mp hsql
      exact ⟨a, List.mem_append_left _ ha, rfl⟩
  | updateProduct =>
      rcases updateProduct_effect.mp hsql with ⟨-, rfl⟩ | ⟨-, -, -, rfl⟩
      · exact ⟨a, ha, rfl⟩
      · exact exists_mem_updateWhere (fun row => productRow_id row.id _) ha
  | deleteProduct =>
      rw [deleteProduct_effect.mp hsql]
      refine ⟨a, mem_deleteWhere.mpr ⟨ha, decide_eq_false ?_⟩, rfl⟩
      rintro rfl
      exact hop rfl
  | _ => exact hold rfl

/-! ### Recipes -/

/-- Filling in a recipe's ingredients anew is a revision of it, except under a name that a create
finds free. -/
theorem Operation.Fills.revision {tables : Tables} {sequences : Sequences} {recipeId : Int}
    {recipe : Recipe} (h : op.Fills tables recipeId recipe)
    (hv : Store.Valid tables sequences) {row : RecipeRow} (hrow : row ∈ tables.recipes)
    (hid : row.id = recipeId)
    (hcreate : ∀ created, op = .createRecipe created → row.name ≠ created.name)
    (ingredients ingredients' : List IngredientRow) :
    RecipeRevision (row, ingredients) op (row, ingredients') := by
  have hnamed : HoldsName tables recipeId recipe.name → row = ⟨recipeId, recipe.name⟩ := fun hname =>
    recipe_eq_of_id hv hrow hname hid
  cases op with
  | insertRecipe new =>
      obtain ⟨rfl, hname⟩ := h
      obtain rfl := hnamed hname
      have hinserts : (Operation.insertRecipe new).Inserts new := rfl
      exact .insertRecipe ingredients' hinserts rfl
  | insertRecipes recipes =>
      obtain ⟨hmem, hname⟩ := h
      obtain rfl := hnamed hname
      have hinserts : (Operation.insertRecipes recipes).Inserts recipe := hmem
      exact .insertRecipe ingredients' hinserts rfl
  | createRecipe created =>
      obtain ⟨rfl, hname⟩ := h
      rw [hnamed hname] at hcreate
      exact absurd rfl (hcreate created rfl)
  | updateRecipe recipeId' new =>
      obtain ⟨rfl, rfl, hname⟩ := h
      obtain rfl := hnamed hname
      exact .updateRecipe new ingredients'
  | _ => exact h.elim

/-- The recipes stay, and only the ingredients of `recipeId` change. -/
theorem Operation.Fills.recipe_from {recipeId : Int} {recipe : Recipe} {tables' : Tables}
    (hfills : op.Fills db.tables recipeId recipe) (hv : Store.Valid db.tables db.sequences)
    {b : RecipeRow} (hb : b ∈ db.tables.recipes)
    (hcreate : ∀ created, op = .createRecipe created → b.name ≠ created.name)
    (hothers : b.id ≠ recipeId → ingredientsOf tables' b.id = ingredientsOf db.tables b.id) :
    ∃ a ∈ db.tables.recipes, a.id = b.id ∧
      Became RecipeRevision (a, ingredientsOf db.tables a.id) op
        (b, ingredientsOf tables' b.id) := by
  refine ⟨b, hb, rfl, ?_⟩
  by_cases hid : b.id = recipeId
  · exact Or.inr (hfills.revision hv hb hid hcreate _ _)
  · exact Or.inl (by rw [hothers hid])

/-- **A recipe after a write** is new, with an id above every earlier one, or is a recipe from
before, perhaps revised. -/
theorem Operation.Issues.recipe_from (h : op.Issues db.tables w values)
    (hsql : w.sql (params values) gap db = .ok db')
    (hv : Store.Valid db.tables db.sequences) {b : RecipeRow} (hb : b ∈ db'.tables.recipes)
    (hcreate : ∀ created, op = .createRecipe created → ∀ row ∈ db.tables.recipes,
      row.id = b.id → row.name ≠ created.name) :
    db.sequences.recipes < b.id ∨ ∃ a ∈ db.tables.recipes, a.id = b.id ∧
      Became RecipeRevision (a, ingredientsOf db.tables a.id) op
        (b, ingredientsOf db'.tables b.id) := by
  have hproduct : w.onProducts = true → ∃ a ∈ db.tables.recipes, a.id = b.id ∧
      Became RecipeRevision (a, ingredientsOf db.tables a.id) op
        (b, ingredientsOf db'.tables b.id) := by
    intro hw
    obtain ⟨hrecipes, hingredients⟩ := h.recipes_eq hsql hw
    exact ⟨b, hrecipes ▸ hb, rfl, Or.inl (by rw [ingredientsOf, hingredients, ingredientsOf])⟩
  cases h with
  | insertRecipe _ =>
      obtain ⟨id, hid, ⟨-, rfl⟩ | ⟨-, rfl⟩⟩ := insertRecipeIfAbsent_effect.mp hsql
      · exact Or.inr ⟨b, hb, rfl, Or.inl rfl⟩
      · rcases List.mem_append.mp hb with hb | hb
        · exact Or.inr ⟨b, hb, rfl, Or.inl rfl⟩
        · rw [List.mem_singleton.mp hb]
          exact Or.inl (nextId_gt hid)
  | createRecipe =>
      obtain ⟨id, hid, -, rfl⟩ := createRecipe_effect.mp hsql
      rcases List.mem_append.mp hb with hb | hb
      · exact Or.inr ⟨b, hb, rfl, Or.inl rfl⟩
      · rw [List.mem_singleton.mp hb]
        exact Or.inl (nextId_gt hid)
  | updateRecipe =>
      rcases updateRecipeName_effect.mp hsql with ⟨-, rfl⟩ | ⟨-, -, rfl⟩
      · exact Or.inr ⟨b, hb, rfl, Or.inl rfl⟩
      · rcases mem_updateWhere.mp hb with ⟨hb, -⟩ | ⟨a, ha, hid, rfl⟩
        · exact Or.inr ⟨b, hb, rfl, Or.inl rfl⟩
        · obtain rfl := of_decide_eq_true hid
          exact Or.inr ⟨a, ha, rfl, Or.inr (.updateRecipe _ _)⟩
  | deleteRecipe =>
      rw [deleteRecipe_effect.mp hsql] at hb ⊢
      obtain ⟨hb, hne⟩ := mem_deleteWhere.mp hb
      refine Or.inr ⟨b, hb, rfl, Or.inl ?_⟩
      refine congrArg (b, ·) (filter_deleteWhere fun i hi => decide_eq_false ?_)
      rintro hib
      have hid := of_decide_eq_true (Bool.and_eq_true_iff.mp hi).1
      exact of_decide_eq_false hne (hib.symm.trans hid)
  | clear hfills =>
      rw [deleteRecipeIngredients_effect.mp hsql] at hb ⊢
      refine Or.inr (hfills.recipe_from hv hb (fun created hop => hcreate created hop b hb rfl) ?_)
      exact fun hne => filter_deleteWhere fun i hi =>
        decide_eq_false fun hib => hne (hib.symm.trans (of_decide_eq_true hi))
  | fill hfills _ =>
      obtain ⟨-, ⟨-, rfl⟩ | ⟨-, -, rfl⟩⟩ := insertRecipeIngredient_effect.mp hsql
      · refine Or.inr (hfills.recipe_from hv hb (fun created hop => hcreate created hop b hb rfl) ?_)
        refine fun hne => filter_updateWhere fun i hi => ?_
        have hid : i.recipeId = _ := congrArg Prod.fst (of_decide_eq_true hi)
        have hne' : decide (i.recipeId = b.id) = false :=
          decide_eq_false fun hib => hne (hib.symm.trans hid)
        exact ⟨hne', hne'⟩
      · refine Or.inr (hfills.recipe_from hv hb (fun created hop => hcreate created hop b hb rfl) ?_)
        exact fun hne => filter_append_new (decide_eq_false fun hib => hne hib.symm)
  | _ => exact Or.inr (hproduct rfl)

theorem Operation.Issues.recipe_stays (h : op.Issues db.tables w values)
    (hsql : w.sql (params values) gap db = .ok db') {a : RecipeRow}
    (ha : a ∈ db.tables.recipes) (hop : op ≠ .deleteRecipe a.id) :
    ∃ b ∈ db'.tables.recipes, b.id = a.id := by
  have hproduct : w.onProducts = true → ∃ b ∈ db'.tables.recipes, b.id = a.id := by
    intro hw
    rw [(h.recipes_eq hsql hw).1]
    exact ⟨a, ha, rfl⟩
  cases h with
  | insertRecipe _ =>
      obtain ⟨id, -, ⟨-, rfl⟩ | ⟨-, rfl⟩⟩ := insertRecipeIfAbsent_effect.mp hsql
      · exact ⟨a, ha, rfl⟩
      · exact ⟨a, List.mem_append_left _ ha, rfl⟩
  | createRecipe =>
      obtain ⟨id, -, -, rfl⟩ := createRecipe_effect.mp hsql
      exact ⟨a, List.mem_append_left _ ha, rfl⟩
  | @updateRecipe recipeId recipe =>
      rcases updateRecipeName_effect.mp hsql with ⟨-, rfl⟩ | ⟨-, -, rfl⟩
      · exact ⟨a, ha, rfl⟩
      · have hid : ∀ row : RecipeRow, ({ row with name := recipe.name } : RecipeRow).id = row.id :=
          fun _ => rfl
        exact exists_mem_updateWhere hid ha
  | deleteRecipe =>
      rw [deleteRecipe_effect.mp hsql]
      refine ⟨a, mem_deleteWhere.mpr ⟨ha, decide_eq_false ?_⟩, rfl⟩
      rintro rfl
      exact hop rfl
  | clear _ =>
      rw [deleteRecipeIngredients_effect.mp hsql]
      exact ⟨a, ha, rfl⟩
  | fill _ _ =>
      obtain ⟨-, ⟨-, rfl⟩ | ⟨-, -, rfl⟩⟩ := insertRecipeIngredient_effect.mp hsql <;>
        exact ⟨a, ha, rfl⟩
  | _ => exact hproduct rfl

end

/-! ## Operations -/

section

variable {op : Operation} {m : DBManager} {productId recipeId : Int} {t : Tables} {q : Sequences}

theorem Operation.run_valid (op : Operation) : Keeps (Rests Store.Valid) op.run :=
  op.run_keeps (rests_kept (Store.closed_valid {})) op.admitted_all

/-- An id that was counted and names no product stays so. -/
theorem Operation.run_productGone (op : Operation) (productId : Int) :
    Keeps (Rests fun tables sequences => Store.Valid tables sequences ∧
      productId ≤ sequences.products ∧ productAt tables productId = none) op.run := by
  refine op.run_preserves fun w values gap db db' hissued ⟨hv, hle, hnone⟩ hsql => ?_
  refine ⟨hissued.valid hsql hv, hle.trans (hissued.sequences_le hsql).1, ?_⟩
  refine productAt_eq_none.mpr fun b hb hid => ?_
  rcases hissued.product_from hsql hb with hnew | ⟨a, ha, haid, -⟩
  · omega
  · exact productAt_eq_none.mp hnone a ha (haid.trans hid)

/-- A product that is not deleted stays what it was, or is revised. -/
theorem Operation.run_productStays {a : ProductRow} (hop : op ≠ .deleteProduct a.id) :
    Keeps (Rests fun tables sequences => Store.Valid tables sequences ∧
      ∃ b, productAt tables a.id = some b ∧ Became ProductRevision a op b) op.run := by
  refine op.run_preserves fun w values gap db db' hissued ⟨hv, b, hb, hbecame⟩ hsql => ?_
  have hv' := hissued.valid hsql hv
  obtain ⟨hmem, hid⟩ := (productAt_eq_some hv).mp hb
  obtain ⟨c, hc, hcid⟩ := hissued.product_stays hsql hmem (hid ▸ hop)
  refine ⟨hv', c, (productAt_eq_some hv').mpr ⟨hc, hcid.trans hid⟩, ?_⟩
  rcases hissued.product_from hsql hc with hnew | ⟨b', hb', hb'id, hstep⟩
  · have := (hv.productIdRange b hmem).2
    omega
  · have hsame : b' = b := List.inj_on_of_nodup_map hv.productIds hb' hmem (hb'id.trans hcid)
    exact hbecame.trans ProductRevision.trans (hsame ▸ hstep)

theorem Operation.run_deleteProduct :
    Triple (fun m => Store.Valid m.db.tables m.db.sequences ∧ m.db.tables = t ∧
        m.db.sequences = q) (Operation.deleteProduct productId).run
      (fun _ m => productAt m.db.tables productId = none) (fun _ m => m.db.tables = t) := by
  refine Triple.map ?_
  rw [deleteProduct_eq]
  refine Triple.bind (Q := fun _ (m : DBManager) => productAt m.db.tables productId = none) ?_
    fun _ _ hm => hm
  refine execBound_atomic.conseq (fun _ h => h) ?_ (fun _ _ h => h)
  rintro _ m ⟨gap, db, -, -, hsql⟩
  rw [deleteProduct_effect.mp hsql]
  exact productAt_eq_none.mpr fun row hrow => of_decide_eq_false (mem_deleteWhere.mp hrow).2

/-- The id a create returns is above every earlier one. -/
theorem Operation.run_createProduct (product : Product) :
    Triple (fun m => m.db.tables = t ∧ m.db.sequences = q) (Operation.createProduct product).run
      (fun r _ => ∃ productId, r = .id productId ∧ q.products < productId) (fun _ _ => True) := by
  rintro m ⟨rfl, rfl⟩
  rcases hrun : runOn (Operation.createProduct product).run m with ⟨e | r, m'⟩
  · trivial
  · obtain ⟨productId, hcreate, rfl⟩ := runOn_map_eq_ok hrun
    exact ⟨productId, rfl, (createProduct_stored hcreate).2.1⟩

/-- **A stored product** is deleted by its id, revised or left alone. -/
theorem Operation.product_kept (hrest : Rests Store.Valid m) {a : ProductRow}
    (ha : productAt m.db.tables productId = some a) (op : Operation) :
    (productAt (runOn op.run m).2.db.tables productId = none ∧ op = .deleteProduct productId) ∨
      ∃ b, productAt (runOn op.run m).2.db.tables productId = some b ∧
        Became ProductRevision a op b := by
  obtain ⟨-, rfl⟩ := (productAt_eq_some hrest.1).mp ha
  by_cases hop : op = .deleteProduct a.id
  · subst hop
    have hpre := And.intro hrest.1 (And.intro (Eq.refl m.db.tables) (Eq.refl m.db.sequences))
    rcases hrun : runOn (Operation.deleteProduct a.id).run m with ⟨e | r, m'⟩
    · have hsame : m'.db.tables = m.db.tables := Operation.run_deleteProduct.of_error hpre hrun
      exact Or.inr ⟨a, by rw [hsame, ha], Or.inl rfl⟩
    · exact Or.inl ⟨Operation.run_deleteProduct.of_ok hpre hrun, rfl⟩
  · have hstays := (Operation.run_productStays hop).after (s := m)
      ⟨⟨hrest.1, a, ha, Or.inl rfl⟩, hrest.2⟩
    exact Or.inr hstays.1.2

/-! ### Recipes -/

theorem Operation.run_recipeGone (op : Operation) (recipeId : Int) :
    Keeps (Rests fun tables sequences => Store.Valid tables sequences ∧
      recipeId ≤ sequences.recipes ∧ recipeAt tables recipeId = none) op.run := by
  refine op.run_preserves fun w values gap db db' hissued ⟨hv, hle, hnone⟩ hsql => ?_
  refine ⟨hissued.valid hsql hv, hle.trans (hissued.sequences_le hsql).2, ?_⟩
  refine recipeAt_eq_none.mpr fun b hb hid => ?_
  have habsent : ∀ row ∈ db.tables.recipes, row.id ≠ b.id := hid ▸ recipeAt_eq_none.mp hnone
  rcases hissued.recipe_from hsql hv hb fun _ _ row hrow h => absurd h (habsent row hrow) with
    hnew | ⟨a, ha, haid, -⟩
  · omega
  · exact habsent a ha haid

/-- A recipe that is neither deleted nor in the way of a create stays what it was, or is
revised. -/
theorem Operation.run_recipeStays {a : RecipeRows} (hop : op ≠ .deleteRecipe a.1.id)
    (hcreate : ∀ created, op = .createRecipe created → a.1.name ≠ created.name) :
    Keeps (Rests fun tables sequences => Store.Valid tables sequences ∧
      ∃ b, recipeAt tables a.1.id = some b ∧ Became RecipeRevision a op b) op.run := by
  refine op.run_preserves fun w values gap db db' hissued ⟨hv, b, hb, hbecame⟩ hsql => ?_
  have hv' := hissued.valid hsql hv
  obtain ⟨hmem, hid, hingredients⟩ := (recipeAt_eq_some hv).mp hb
  obtain ⟨c, hc, hcid⟩ := hissued.recipe_stays hsql hmem (hid ▸ hop)
  refine ⟨hv', (c, ingredientsOf db'.tables c.id),
    (recipeAt_eq_some hv').mpr ⟨hc, hcid.trans hid, by rw [hcid, hid]⟩, ?_⟩
  have hunique : ∀ row ∈ db.tables.recipes, row.id = c.id → row = b.1 := fun row hrow hrowid =>
    recipe_eq_of_id hv hrow hmem (hrowid.trans hcid)
  have hfree : ∀ created, op = .createRecipe created → ∀ row ∈ db.tables.recipes,
      row.id = c.id → row.name ≠ created.name := by
    intro created hcreated row hrow hrowid
    rw [hunique row hrow hrowid]
    -- a create revises nothing
    rcases hbecame with rfl | hrevised
    · exact hcreate created hcreated
    · subst hcreated
      cases hrevised with
      | insertRecipe _ hinserts _ => exact hinserts.elim
  rcases hissued.recipe_from hsql hv hc hfree with hnew | ⟨b', hb', hb'id, hstep⟩
  · have := (hv.recipeIdRange b.1 hmem).2
    omega
  · obtain rfl := hunique b' hb' hb'id
    refine hbecame.trans RecipeRevision.trans ?_
    rw [hid, ← hingredients] at hstep
    exact hstep

theorem Operation.run_deleteRecipe :
    Triple (fun m => Store.Valid m.db.tables m.db.sequences ∧ m.db.tables = t ∧
        m.db.sequences = q) (Operation.deleteRecipe recipeId).run
      (fun _ m => recipeAt m.db.tables recipeId = none) (fun _ m => m.db.tables = t) := by
  refine Triple.map ?_
  rw [deleteRecipe_eq]
  refine Triple.bind (Q := fun _ (m : DBManager) => recipeAt m.db.tables recipeId = none) ?_
    fun _ _ hm => hm
  refine execBound_atomic.conseq (fun _ h => h) ?_ (fun _ _ h => h)
  rintro _ m ⟨gap, db, -, -, hsql⟩
  rw [deleteRecipe_effect.mp hsql]
  exact recipeAt_eq_none.mpr fun row hrow => of_decide_eq_false (mem_deleteWhere.mp hrow).2

/-- A create that returns found its name free, and the id it returns is above every earlier one. -/
theorem Operation.run_createRecipe (recipe : Recipe) :
    Triple (fun m => m.db.tables = t ∧ m.db.sequences = q) (Operation.createRecipe recipe).run
      (fun r _ => ∃ recipeId, r = .id recipeId ∧ q.recipes < recipeId ∧
        ∀ row ∈ t.recipes, row.name ≠ recipe.name) (fun _ _ => True) := by
  refine Triple.map ?_
  rw [createRecipe_eq]
  refine Triple.bind (Q := fun _ m => m.db.tables = t ∧ m.db.sequences = q) ?_ fun _ =>
    Triple.ensuring ?_
  · exact (execDirect_triple (J := fun db _ => db.tables = t ∧ db.sequences = q)
      (K := fun db _ => db.tables = t ∧ db.sequences = q)
      (f := fun m => { m with saved := some (m.db.tables, m.db.sequences) })
      fun _ h => h).conseq (fun _ h => h) (fun _ _ h => h) (fun _ _ _ => trivial)
  refine Triple.bind (Q := fun _ m => q.recipes < m.db.lastInsertRowid ∧
    ∀ row ∈ t.recipes, row.name ≠ recipe.name) ?_ fun _ => ?_
  · refine (execBound_triple (J := fun db _ => db.tables = t ∧ db.sequences = q)).conseq
      (fun _ h => h) ?_ (fun _ _ _ => trivial)
    rintro _ m ⟨gap, db, ⟨rfl, rfl⟩, hsql⟩
    obtain ⟨id, hid, hfree, hdb⟩ := createRecipe_effect.mp hsql
    rw [hdb]
    exact ⟨nextId_gt hid, hfree⟩
  · refine Triple.bind (Q := fun recipeId _ => q.recipes < recipeId ∧
      ∀ row ∈ t.recipes, row.name ≠ recipe.name) (fun _ hm => hm) fun recipeId => ?_
    exact Triple.const.bind fun _ => Triple.const.bind fun _ => Triple.pure fun _ h =>
      ⟨recipeId, rfl, h⟩

/-- **A stored recipe** is deleted by its id, revised or left alone. -/
theorem Operation.recipe_kept (hrest : Rests Store.Valid m) {a : RecipeRows}
    (ha : recipeAt m.db.tables recipeId = some a) (op : Operation) :
    (recipeAt (runOn op.run m).2.db.tables recipeId = none ∧ op = .deleteRecipe recipeId) ∨
      ∃ b, recipeAt (runOn op.run m).2.db.tables recipeId = some b ∧
        Became RecipeRevision a op b := by
  obtain ⟨hmem, rfl, -⟩ := (recipeAt_eq_some hrest.1).mp ha
  have hpre := And.intro hrest.1 (And.intro (Eq.refl m.db.tables) (Eq.refl m.db.sequences))
  have hunchanged : ∀ {m' : DBManager}, m'.db.tables = m.db.tables →
      ∃ b, recipeAt m'.db.tables a.1.id = some b ∧ Became RecipeRevision a op b :=
    fun hsame => ⟨a, by rw [hsame, ha], Or.inl rfl⟩
  by_cases hop : op = .deleteRecipe a.1.id
  · subst hop
    rcases hrun : runOn (Operation.deleteRecipe a.1.id).run m with ⟨e | r, m'⟩
    · exact Or.inr (hunchanged (Operation.run_deleteRecipe.of_error hpre hrun))
    · exact Or.inl ⟨Operation.run_deleteRecipe.of_ok hpre hrun, rfl⟩
  · by_cases hconflict : ∃ created, op = .createRecipe created ∧ a.1.name = created.name
    · -- a create under a name that is taken throws, and a transaction that throws changes nothing
      obtain ⟨created, rfl, hname⟩ := hconflict
      have hatomic := (createRecipe_atomic created).map (f := Returned.id)
        (fun _ h => by simp [Returned.isFalse] at h) m.db.tables m.db.sequences
      rcases hrun : runOn (Operation.createRecipe created).run m with ⟨e | r, m'⟩
      · exact Or.inr (hunchanged (hatomic.of_error hpre hrun))
      · obtain ⟨recipeId, -, -, hfree⟩ := (Operation.run_createRecipe created).of_ok hpre.2 hrun
        exact absurd hname (hfree a.1 hmem)
    · have hcreate : ∀ created, op = .createRecipe created → a.1.name ≠ created.name :=
        fun created hcreated hname => hconflict ⟨created, hcreated, hname⟩
      have hstays := (Operation.run_recipeStays hop hcreate).after (s := m)
        ⟨⟨hrest.1, a, ha, Or.inl rfl⟩, hrest.2⟩
      exact Or.inr hstays.1.2

end

end RecipesCore.Db
