import RecipesCore.Db.Effects

/-!
# The store invariant

`Store.Valid` is what the schema and the ids promise about the three tables, and `Store.From` what is
left of the arguments: every stored key was passed in. `Issued A` lists the writes the manager ever
issues, for arguments that `A` admits; an invariant is `Closed` under them when each such write
preserves it. The two theorems at the end are the whole case analysis: nothing later looks at a
statement again.
-/

namespace RecipesCore.Db

open RecipesCore.Relational
open RecipesCore.Sqlite
open RecipesCore.Types
open RecipesCore.Types.PreparedStatements

/-! ## Writes -/

/-- Which arguments may be written: names of recipes, and products and ingredients. -/
structure Admits where
  recipe : String → Prop := fun _ => True
  product : Product → Prop := fun _ => True

/-- The writes a manager issues: the statement, and the values bound to it. -/
inductive Issued (A : Admits) : Write → List Value → Prop where
  | insertProduct {product : Product} : A.product product →
      Issued A .insertProduct (productValues product)
  | createProduct {product : Product} : A.product product →
      Issued A .createProduct (productValues product)
  | updateProductById {product : Product} (productId : Int) : A.product product →
      Issued A .updateProductById (productValues product ++ [.integer productId])
  | deleteProductById (productId : Int) : Issued A .deleteProductById [.integer productId]
  | insertRecipeIfAbsent {name : String} : A.recipe name →
      Issued A .insertRecipeIfAbsent [.text name]
  | createRecipe {name : String} : A.recipe name → Issued A .createRecipe [.text name]
  | deleteRecipeIngredientsByRecipeId (recipeId : Int) :
      Issued A .deleteRecipeIngredientsByRecipeId [.integer recipeId]
  | insertRecipeIngredient (recipeId : Int) {ingredient : Product} : A.product ingredient →
      Issued A .insertRecipeIngredient (ingredientValues recipeId ingredient)
  | updateRecipeNameById (recipeId : Int) {name : String} : A.recipe name →
      Issued A .updateRecipeNameById [.text name, .integer recipeId]
  | deleteRecipeById (recipeId : Int) : Issued A .deleteRecipeById [.integer recipeId]

/-- A property of the stored data that every issued write preserves. -/
def Closed (A : Admits) (I : Tables → Sequences → Prop) : Prop :=
  ∀ ⦃w values gap db db'⦄, Issued A w values → I db.tables db.sequences →
    w.sql (params values) gap db = .ok db' → I db'.tables db'.sequences

/-! ## Validity -/

/-- A stored amount is an `int` that is not negative. -/
def InRange (amount : Int) : Prop := 0 ≤ amount ∧ amount ≤ 2 ^ 31 - 1

/-- A stored dimension is the number of a `Dimension`. -/
def IsDimension (dimension : Int) : Prop := ∃ d : Dimension, d.code = dimension

structure Store.Valid (tables : Tables) (sequences : Sequences) : Prop where
  productIds : (tables.products.map fun p => p.id).Nodup
  productKeys : (tables.products.map ProductRow.key).Nodup
  /-- AUTOINCREMENT: every id is positive and already counted by `sqlite_sequence`. -/
  productIdRange : ∀ p ∈ tables.products, 0 < p.id ∧ p.id ≤ sequences.products
  productValues : ∀ p ∈ tables.products, InRange p.amountBase ∧ IsDimension p.dimension
  recipeIds : (tables.recipes.map fun r => r.id).Nodup
  recipeNames : (tables.recipes.map fun r => r.name).Nodup
  recipeIdRange : ∀ r ∈ tables.recipes, 0 < r.id ∧ r.id ≤ sequences.recipes
  ingredientKeys : (tables.recipeIngredients.map IngredientRow.key).Nodup
  ingredientValues : ∀ i ∈ tables.recipeIngredients,
    InRange i.requiredAmountBase ∧ IsDimension i.dimension
  /-- The foreign key: no ingredient without its recipe. -/
  ingredientRecipes : ∀ i ∈ tables.recipeIngredients, ∃ r ∈ tables.recipes, r.id = i.recipeId
  sequencesNonneg : 0 ≤ sequences.products ∧ 0 ≤ sequences.recipes

/-- Every stored key is the key of something admitted. -/
structure Store.From (A : Admits) (tables : Tables) (_sequences : Sequences) : Prop where
  products : ∀ p ∈ tables.products, ∃ product, A.product product ∧ productKey product = p.key
  recipes : ∀ r ∈ tables.recipes, A.recipe r.name
  ingredients : ∀ i ∈ tables.recipeIngredients, ∃ ingredient, A.product ingredient ∧
    productKey ingredient = (i.productName, i.dimension)

/-- No stored name is empty. -/
structure Store.Named (tables : Tables) : Prop where
  products : ∀ p ∈ tables.products, p.name ≠ ""
  recipes : ∀ r ∈ tables.recipes, r.name ≠ ""
  ingredients : ∀ i ∈ tables.recipeIngredients, i.productName ≠ ""

/-- Every stored dimension is one of those that the enumeration lists. -/
structure Store.Declared (tables : Tables) : Prop where
  products : ∀ p ∈ tables.products, ∃ d : Dimension, d.IsDeclared ∧ d.code = p.dimension
  ingredients : ∀ i ∈ tables.recipeIngredients, ∃ d : Dimension, d.IsDeclared ∧ d.code = i.dimension

namespace Store

theorem valid_empty : Valid {} {} where
  productIds := List.nodup_nil
  productKeys := List.nodup_nil
  productIdRange := by simp
  productValues := by simp
  recipeIds := List.nodup_nil
  recipeNames := List.nodup_nil
  recipeIdRange := by simp
  ingredientKeys := List.nodup_nil
  ingredientValues := by simp
  ingredientRecipes := by simp
  sequencesNonneg := ⟨le_rfl, le_rfl⟩

theorem from_empty {A : Admits} : From A {} {} where
  products := by simp
  recipes := by simp
  ingredients := by simp

theorem inRange_amount {amount : Int32} (h : 0 ≤ amount.toInt) : InRange amount.toInt := by
  have := amount.toInt_lt
  exact ⟨h, by omega⟩

variable {tables : Tables} {sequences : Sequences} {product : Product} {id recipeId : Int}
  {name : String}

/-! ## Products -/

/-- A row with a new id and a new key. -/
theorem Valid.appendProduct (hv : Valid tables sequences) (hid : sequences.products < id)
    (hamount : 0 ≤ product.amount.toInt)
    (hfree : ∀ other ∈ tables.products, other.key ≠ productKey product) :
    Valid { tables with products := tables.products ++ [productRow id product] }
      { sequences with products := id } := by
  have hseq := hv.sequencesNonneg
  refine { hv with
    productIds := ?_, productKeys := ?_, productIdRange := ?_, productValues := ?_,
    sequencesNonneg := ?_ }
  · refine nodup_append_new hv.productIds fun other hmem heq => ?_
    have := (hv.productIdRange other hmem).2
    simp only [productRow_id] at heq
    omega
  · exact nodup_append_new hv.productKeys hfree
  · intro p hp
    rcases List.mem_append.mp hp with hp | hp
    · have := hv.productIdRange p hp
      exact ⟨this.1, by simp only; omega⟩
    · rw [List.mem_singleton.mp hp]
      exact ⟨by simp only [productRow_id]; omega, le_rfl⟩
  · intro p hp
    rcases List.mem_append.mp hp with hp | hp
    · exact hv.productValues p hp
    · rw [List.mem_singleton.mp hp]
      exact ⟨inRange_amount hamount, product.dimension, rfl⟩
  · exact ⟨by simp only; omega, hseq.2⟩

/-- The upsert's other half: the row with the same key takes the new amount and dates. -/
theorem Valid.excludeProduct (hv : Valid tables sequences) (hid : sequences.products < id)
    (hamount : 0 ≤ product.amount.toInt) (p : ProductRow → Bool) :
    Valid { tables with
        products := updateWhere p (ProductRow.setExcluded (productRow id product)) tables.products }
      { sequences with products := id } := by
  have hseq := hv.sequencesNonneg
  refine { hv with
    productIds := ?_, productKeys := ?_, productIdRange := ?_, productValues := ?_,
    sequencesNonneg := ?_ }
  · exact nodup_updateWhere_of_keep (setExcluded_id _) hv.productIds
  · exact nodup_updateWhere_of_keep (setExcluded_key _) hv.productKeys
  · intro q hq
    rcases mem_updateWhere.mp hq with ⟨hq, -⟩ | ⟨a, ha, -, rfl⟩
    · have := hv.productIdRange q hq
      exact ⟨this.1, by simp only; omega⟩
    · have := hv.productIdRange a ha
      exact ⟨this.1, by simp only [setExcluded_id]; omega⟩
  · intro q hq
    rcases mem_updateWhere.mp hq with ⟨hq, -⟩ | ⟨a, ha, -, rfl⟩
    · exact hv.productValues q hq
    · exact ⟨inRange_amount hamount, (hv.productValues a ha).2⟩
  · exact ⟨by simp only; omega, hseq.2⟩

theorem Valid.updateProduct (hv : Valid tables sequences) (hamount : 0 ≤ product.amount.toInt)
    (hfree : ∀ other ∈ tables.products, other.id ≠ id → other.key ≠ productKey product) :
    Valid { tables with
        products := updateWhere (fun row => decide (row.id = id))
          (fun row => productRow row.id product) tables.products } sequences := by
  refine { hv with productIds := ?_, productKeys := ?_, productIdRange := ?_, productValues := ?_ }
  · exact nodup_updateWhere_of_keep (fun row => productRow_id row.id product) hv.productIds
  · refine nodup_updateWhere hv.productKeys (pairwise_of_nodup hv.productIds id) ?_
    intro a _ _ b hb hbid
    rw [productRow_key]
    exact (hfree b hb (of_decide_eq_false hbid)).symm
  · intro q hq
    rcases mem_updateWhere.mp hq with ⟨hq, -⟩ | ⟨a, ha, -, rfl⟩
    · exact hv.productIdRange q hq
    · exact hv.productIdRange a ha
  · intro q hq
    rcases mem_updateWhere.mp hq with ⟨hq, -⟩ | ⟨a, ha, -, rfl⟩
    · exact hv.productValues q hq
    · exact ⟨inRange_amount hamount, product.dimension, rfl⟩

theorem Valid.deleteProduct (hv : Valid tables sequences) (p : ProductRow → Bool) :
    Valid { tables with products := deleteWhere p tables.products } sequences where
  __ := hv
  productIds := nodup_deleteWhere hv.productIds
  productKeys := nodup_deleteWhere hv.productKeys
  productIdRange q hq := hv.productIdRange q (mem_deleteWhere.mp hq).1
  productValues q hq := hv.productValues q (mem_deleteWhere.mp hq).1

/-! ## Recipes -/

/-- An insert attempt counts an id also when it adds no row. -/
theorem Valid.bumpRecipes (hv : Valid tables sequences) (hid : sequences.recipes < id) :
    Valid tables { sequences with recipes := id } := by
  have hseq := hv.sequencesNonneg
  refine { hv with recipeIdRange := ?_, sequencesNonneg := ?_ }
  · intro r hr
    have := hv.recipeIdRange r hr
    exact ⟨this.1, by simp only; omega⟩
  · exact ⟨hseq.1, by simp only; omega⟩

theorem Valid.appendRecipe (hv : Valid tables sequences) (hid : sequences.recipes < id)
    (hfree : ∀ other ∈ tables.recipes, other.name ≠ name) :
    Valid { tables with recipes := tables.recipes ++ [{ id, name }] }
      { sequences with recipes := id } := by
  have hseq := hv.sequencesNonneg
  refine { hv.bumpRecipes hid with
    recipeIds := ?_, recipeNames := ?_, recipeIdRange := ?_, ingredientRecipes := ?_ }
  · refine nodup_append_new hv.recipeIds fun other hmem heq => ?_
    have := (hv.recipeIdRange other hmem).2
    simp only at heq
    omega
  · exact nodup_append_new hv.recipeNames hfree
  · intro r hr
    rcases List.mem_append.mp hr with hr | hr
    · exact (hv.bumpRecipes hid).recipeIdRange r hr
    · rw [List.mem_singleton.mp hr]
      exact ⟨by simp only; omega, le_rfl⟩
  · intro i hi
    obtain ⟨r, hr, hrid⟩ := hv.ingredientRecipes i hi
    exact ⟨r, List.mem_append_left _ hr, hrid⟩

theorem Valid.renameRecipe (hv : Valid tables sequences)
    (hfree : ∀ other ∈ tables.recipes, other.id ≠ id → other.name ≠ name) :
    Valid { tables with
        recipes := updateWhere (fun row => decide (row.id = id)) (fun row => { row with name })
          tables.recipes } sequences := by
  refine { hv with
    recipeIds := ?_, recipeNames := ?_, recipeIdRange := ?_, ingredientRecipes := ?_ }
  · exact nodup_updateWhere_of_keep (fun _ => rfl) hv.recipeIds
  · refine nodup_updateWhere hv.recipeNames (pairwise_of_nodup hv.recipeIds id) ?_
    intro a _ _ b hb hbid
    exact (hfree b hb (of_decide_eq_false hbid)).symm
  · intro r hr
    rcases mem_updateWhere.mp hr with ⟨hr, -⟩ | ⟨a, ha, -, rfl⟩
    · exact hv.recipeIdRange r hr
    · exact hv.recipeIdRange a ha
  · intro i hi
    obtain ⟨r, hr, hrid⟩ := hv.ingredientRecipes i hi
    by_cases hsel : r.id = id
    · exact ⟨{ r with name }, mem_updateWhere.mpr (Or.inr ⟨r, hr, decide_eq_true hsel, rfl⟩), hrid⟩
    · exact ⟨r, mem_updateWhere.mpr (Or.inl ⟨hr, decide_eq_false hsel⟩), hrid⟩

/-- The cascade leaves no orphan: an ingredient that stays belongs to another recipe, or to one
that was not there, and the latter cannot be. -/
theorem Valid.deleteRecipe (hv : Valid tables sequences) :
    Valid { tables with
        recipes := deleteWhere (fun row => decide (row.id = id)) tables.recipes
        recipeIngredients := deleteWhere
          (fun row => decide (row.recipeId = id) &&
            tables.recipes.any fun recipe => decide (recipe.id = id))
          tables.recipeIngredients } sequences where
  __ := hv
  recipeIds := nodup_deleteWhere hv.recipeIds
  recipeNames := nodup_deleteWhere hv.recipeNames
  recipeIdRange r hr := hv.recipeIdRange r (mem_deleteWhere.mp hr).1
  ingredientKeys := nodup_deleteWhere hv.ingredientKeys
  ingredientValues i hi := hv.ingredientValues i (mem_deleteWhere.mp hi).1
  ingredientRecipes i hi := by
    obtain ⟨hi, hkeep⟩ := mem_deleteWhere.mp hi
    obtain ⟨r, hr, hrid⟩ := hv.ingredientRecipes i hi
    refine ⟨r, mem_deleteWhere.mpr ⟨hr, decide_eq_false fun hsel => ?_⟩, hrid⟩
    have hany : (tables.recipes.any fun recipe => decide (recipe.id = id)) = true :=
      any_decide_iff.mpr ⟨r, hr, hsel⟩
    simp [hany, ← hrid, hsel] at hkeep

/-! ## Ingredients -/

theorem Valid.deleteIngredients (hv : Valid tables sequences) (p : IngredientRow → Bool) :
    Valid { tables with recipeIngredients := deleteWhere p tables.recipeIngredients }
      sequences where
  __ := hv
  ingredientKeys := nodup_deleteWhere hv.ingredientKeys
  ingredientValues i hi := hv.ingredientValues i (mem_deleteWhere.mp hi).1
  ingredientRecipes i hi := hv.ingredientRecipes i (mem_deleteWhere.mp hi).1

theorem Valid.updateIngredient (hv : Valid tables sequences)
    (hamount : 0 ≤ product.amount.toInt) (p : IngredientRow → Bool) :
    Valid { tables with
        recipeIngredients := updateWhere p
          (fun row => { row with requiredAmountBase := product.amount.toInt })
          tables.recipeIngredients } sequences := by
  refine { hv with ingredientKeys := ?_, ingredientValues := ?_, ingredientRecipes := ?_ }
  · exact nodup_updateWhere_of_keep (fun _ => rfl) hv.ingredientKeys
  · intro i hi
    rcases mem_updateWhere.mp hi with ⟨hi, -⟩ | ⟨a, ha, -, rfl⟩
    · exact hv.ingredientValues i hi
    · exact ⟨inRange_amount hamount, (hv.ingredientValues a ha).2⟩
  · intro i hi
    rcases mem_updateWhere.mp hi with ⟨hi, -⟩ | ⟨a, ha, -, rfl⟩
    · exact hv.ingredientRecipes i hi
    · exact hv.ingredientRecipes a ha

theorem Valid.appendIngredient (hv : Valid tables sequences) (rowid : Int)
    (hamount : 0 ≤ product.amount.toInt)
    (hfree : ∀ other ∈ tables.recipeIngredients, other.key ≠ (recipeId, productKey product))
    (hrecipe : ∃ recipe ∈ tables.recipes, recipe.id = recipeId) :
    Valid { tables with
        recipeIngredients := tables.recipeIngredients ++ [ingredientRow rowid recipeId product] }
      sequences := by
  refine { hv with ingredientKeys := ?_, ingredientValues := ?_, ingredientRecipes := ?_ }
  · exact nodup_append_new hv.ingredientKeys hfree
  · intro i hi
    rcases List.mem_append.mp hi with hi | hi
    · exact hv.ingredientValues i hi
    · rw [List.mem_singleton.mp hi]
      exact ⟨inRange_amount hamount, product.dimension, rfl⟩
  · intro i hi
    rcases List.mem_append.mp hi with hi | hi
    · exact hv.ingredientRecipes i hi
    · rw [List.mem_singleton.mp hi]
      exact hrecipe

/-! ## Closure -/

/-- **Every write the manager issues keeps the store valid.** -/
theorem closed_valid (A : Admits) : Closed A Valid := by
  intro w values gap db db' hw hv hsql
  cases hw with
  | insertProduct _ =>
      obtain ⟨id, hid, hamount, rfl⟩ := insertProduct_effect.mp hsql
      have hlt := nextId_gt hid
      simp only [upsert]
      split
      · exact hv.excludeProduct hlt hamount _
      · next hany =>
          rw [any_decide_iff] at hany
          exact hv.appendProduct hlt hamount fun other hmem hkey => hany ⟨other, hmem, hkey⟩
  | createProduct _ =>
      obtain ⟨id, hid, hamount, hfree, rfl⟩ := createProduct_effect.mp hsql
      exact hv.appendProduct (nextId_gt hid) hamount hfree
  | updateProductById productId _ =>
      rcases updateProduct_effect.mp hsql with ⟨-, rfl⟩ | ⟨-, hamount, hfree, rfl⟩
      · exact hv
      · exact hv.updateProduct hamount hfree
  | deleteProductById productId =>
      rw [deleteProduct_effect.mp hsql]
      exact hv.deleteProduct _
  | insertRecipeIfAbsent _ =>
      obtain ⟨id, hid, ⟨-, rfl⟩ | ⟨hfree, rfl⟩⟩ := insertRecipeIfAbsent_effect.mp hsql
      · exact hv.bumpRecipes (nextId_gt hid)
      · exact hv.appendRecipe (nextId_gt hid) hfree
  | createRecipe _ =>
      obtain ⟨id, hid, hfree, rfl⟩ := createRecipe_effect.mp hsql
      exact hv.appendRecipe (nextId_gt hid) hfree
  | deleteRecipeIngredientsByRecipeId recipeId =>
      rw [deleteRecipeIngredients_effect.mp hsql]
      exact hv.deleteIngredients _
  | insertRecipeIngredient recipeId _ =>
      obtain ⟨hamount, ⟨-, rfl⟩ | ⟨hfree, hrecipe, rfl⟩⟩ := insertRecipeIngredient_effect.mp hsql
      · exact hv.updateIngredient hamount _
      · exact hv.appendIngredient _ hamount hfree hrecipe
  | updateRecipeNameById recipeId _ =>
      rcases updateRecipeName_effect.mp hsql with ⟨-, rfl⟩ | ⟨-, hfree, rfl⟩
      · exact hv
      · exact hv.renameRecipe hfree
  | deleteRecipeById recipeId =>
      rw [deleteRecipe_effect.mp hsql]
      exact hv.deleteRecipe

/-- **The stored keys are keys that were passed in.** -/
theorem closed_from (A : Admits) : Closed A (From A) := by
  intro w values gap db db' hw hf hsql
  cases hw with
  | @insertProduct product hproduct =>
      obtain ⟨id, -, -, rfl⟩ := insertProduct_effect.mp hsql
      refine ⟨fun p hp => ?_, hf.recipes, hf.ingredients⟩
      -- the row that the upsert meets keeps its name and dimension
      rcases mem_upsert hp with hp | rfl | ⟨a, ha, -, rfl⟩
      · exact hf.products p hp
      · exact ⟨product, hproduct, rfl⟩
      · exact hf.products a ha
  | @createProduct product hproduct =>
      obtain ⟨id, -, -, -, rfl⟩ := createProduct_effect.mp hsql
      refine ⟨fun p hp => ?_, hf.recipes, hf.ingredients⟩
      rcases List.mem_append.mp hp with hp | hp
      · exact hf.products p hp
      · rw [List.mem_singleton.mp hp]
        exact ⟨product, hproduct, rfl⟩
  | @updateProductById product productId hproduct =>
      rcases updateProduct_effect.mp hsql with ⟨-, rfl⟩ | ⟨-, -, -, rfl⟩
      · exact hf
      · refine ⟨fun p hp => ?_, hf.recipes, hf.ingredients⟩
        rcases mem_updateWhere.mp hp with ⟨hp, -⟩ | ⟨a, -, -, rfl⟩
        · exact hf.products p hp
        · exact ⟨product, hproduct, rfl⟩
  | deleteProductById productId =>
      rw [deleteProduct_effect.mp hsql]
      exact ⟨fun p hp => hf.products p (mem_deleteWhere.mp hp).1, hf.recipes, hf.ingredients⟩
  | insertRecipeIfAbsent hname =>
      obtain ⟨id, -, ⟨-, rfl⟩ | ⟨-, rfl⟩⟩ := insertRecipeIfAbsent_effect.mp hsql
      · exact ⟨hf.products, hf.recipes, hf.ingredients⟩
      · exact ⟨hf.products, List.forall_mem_append.mpr ⟨hf.recipes, by simpa using hname⟩,
          hf.ingredients⟩
  | createRecipe hname =>
      obtain ⟨id, -, -, rfl⟩ := createRecipe_effect.mp hsql
      exact ⟨hf.products, List.forall_mem_append.mpr ⟨hf.recipes, by simpa using hname⟩,
        hf.ingredients⟩
  | deleteRecipeIngredientsByRecipeId recipeId =>
      rw [deleteRecipeIngredients_effect.mp hsql]
      exact ⟨hf.products, hf.recipes, fun i hi => hf.ingredients i (mem_deleteWhere.mp hi).1⟩
  | @insertRecipeIngredient recipeId ingredient hingredient =>
      obtain ⟨-, ⟨-, rfl⟩ | ⟨-, -, rfl⟩⟩ := insertRecipeIngredient_effect.mp hsql
      -- only the amount of a known ingredient changes
      · refine ⟨hf.products, hf.recipes, fun i hi => ?_⟩
        rcases mem_updateWhere.mp hi with ⟨hi, -⟩ | ⟨a, ha, -, rfl⟩
        · exact hf.ingredients i hi
        · exact hf.ingredients a ha
      · refine ⟨hf.products, hf.recipes, fun i hi => ?_⟩
        rcases List.mem_append.mp hi with hi | hi
        · exact hf.ingredients i hi
        · rw [List.mem_singleton.mp hi]
          exact ⟨ingredient, hingredient, rfl⟩
  | updateRecipeNameById recipeId hname =>
      rcases updateRecipeName_effect.mp hsql with ⟨-, rfl⟩ | ⟨-, -, rfl⟩
      · exact hf
      · refine ⟨hf.products, fun r hr => ?_, hf.ingredients⟩
        rcases mem_updateWhere.mp hr with ⟨hr, -⟩ | ⟨a, -, -, rfl⟩
        · exact hf.recipes r hr
        · exact hname
  | deleteRecipeById recipeId =>
      rw [deleteRecipe_effect.mp hsql]
      exact ⟨hf.products, fun r hr => hf.recipes r (mem_deleteWhere.mp hr).1,
        fun i hi => hf.ingredients i (mem_deleteWhere.mp hi).1⟩

theorem From.named {A : Admits} (h : From A tables sequences)
    (hrecipe : ∀ name, A.recipe name → name ≠ "")
    (hproduct : ∀ product, A.product product → product.name ≠ "") : Named tables where
  products p hp := by
    obtain ⟨product, hadmitted, hkey⟩ := h.products p hp
    exact (Prod.mk.inj hkey).1 ▸ hproduct product hadmitted
  recipes r hr := hrecipe r.name (h.recipes r hr)
  ingredients i hi := by
    obtain ⟨ingredient, hadmitted, hkey⟩ := h.ingredients i hi
    exact (Prod.mk.inj hkey).1 ▸ hproduct ingredient hadmitted

theorem From.declared {A : Admits} (h : From A tables sequences)
    (hproduct : ∀ product, A.product product → product.dimension.IsDeclared) :
    Declared tables where
  products p hp := by
    obtain ⟨product, hadmitted, hkey⟩ := h.products p hp
    exact ⟨product.dimension, hproduct product hadmitted, (Prod.mk.inj hkey).2⟩
  ingredients i hi := by
    obtain ⟨ingredient, hadmitted, hkey⟩ := h.ingredients i hi
    exact ⟨ingredient.dimension, hproduct ingredient hadmitted, (Prod.mk.inj hkey).2⟩

end Store

end RecipesCore.Db
