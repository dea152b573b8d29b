import RecipesCore.Db.Atomic
import RecipesCore.Db.ReadBack

/-!
# Which writes an operation issues, and what it cannot touch

`Operation.Issues tables` lists the writes an operation may issue over some tables, with the values
bound to them. What all of these preserve is preserved by the operation, however it ends
(`Operation.run_preserves`), so a frame condition is a fact about single writes: product operations
write to one table and recipe operations to the other two, and an update or delete only to the rows
of its id.
-/

namespace RecipesCore.Db

open RecipesCore.Logic RecipesCore.Logic.Program
open RecipesCore.Relational
open RecipesCore.Sqlite
open RecipesCore.Types
open RecipesCore.Types.PreparedStatements
open DBManager

/-! ## Issued writes -/

/-- `recipeId` is stored under `name`. -/
def HoldsName (tables : Tables) (recipeId : Int) (name : String) : Prop :=
  ({ id := recipeId, name } : RecipeRow) ∈ tables.recipes

/-- The recipes an operation inserts unless their names are there. -/
def Operation.Inserts : Operation → Recipe → Prop
  | .insertRecipe recipe', recipe => recipe' = recipe
  | .insertRecipes recipes, recipe => recipe ∈ recipes
  | _, _ => False

/-- The recipes whose ingredients an operation replaces, and under which id: the one that holds the
name, also after an update. -/
def Operation.Fills (tables : Tables) : Operation → Int → Recipe → Prop
  | .insertRecipe recipe', recipeId, recipe | .createRecipe recipe', recipeId, recipe =>
      recipe' = recipe ∧ HoldsName tables recipeId recipe.name
  | .insertRecipes recipes, recipeId, recipe =>
      recipe ∈ recipes ∧ HoldsName tables recipeId recipe.name
  | .updateRecipe recipeId' recipe', recipeId, recipe =>
      recipeId' = recipeId ∧ recipe' = recipe ∧ HoldsName tables recipeId recipe.name
  | _, _, _ => False

/-- The writes an operation may issue over some tables. -/
inductive Operation.Issues (tables : Tables) : Operation → Write → List Value → Prop where
  | insertProduct {product : Product} :
      Issues tables (.insertProduct product) .insertProduct (productValues product)
  | insertProducts {products : List Product} {product : Product} : product ∈ products →
      Issues tables (.insertProducts products) .insertProduct (productValues product)
  | createProduct {product : Product} :
      Issues tables (.createProduct product) .createProduct (productValues product)
  | updateProduct {productId : Int} {product : Product} :
      Issues tables (.updateProduct productId product) .updateProductById
        (productValues product ++ [.integer productId])
  | deleteProduct {productId : Int} :
      Issues tables (.deleteProduct productId) .deleteProductById [.integer productId]
  | insertRecipe {op : Operation} {recipe : Recipe} : op.Inserts recipe →
      Issues tables op .insertRecipeIfAbsent [.text recipe.name]
  | createRecipe {recipe : Recipe} :
      Issues tables (.createRecipe recipe) .createRecipe [.text recipe.name]
  | updateRecipe {recipeId : Int} {recipe : Recipe} :
      Issues tables (.updateRecipe recipeId recipe) .updateRecipeNameById
        [.text recipe.name, .integer recipeId]
  | deleteRecipe {recipeId : Int} :
      Issues tables (.deleteRecipe recipeId) .deleteRecipeById [.integer recipeId]
  | clear {op : Operation} {recipeId : Int} {recipe : Recipe} : op.Fills tables recipeId recipe →
      Issues tables op .deleteRecipeIngredientsByRecipeId [.integer recipeId]
  | fill {op : Operation} {recipeId : Int} {recipe : Recipe} {ingredient : Product} :
      op.Fills tables recipeId recipe → ingredient ∈ recipe.ingredients →
      Issues tables op .insertRecipeIngredient (ingredientValues recipeId ingredient)

/-- Where `C` holds of the tables, the write preserves `I`. -/
def Preserves (C : Tables → Prop) (I : Tables → Sequences → Prop) (w : Write)
    (values : List Value) : Prop :=
  ∀ ⦃gap db db'⦄, C db.tables → I db.tables db.sequences →
    w.sql (params values) gap db = .ok db' → I db'.tables db'.sequences

/-- Every write the operation issues preserves `I`. -/
def Operation.Preserves (I : Tables → Sequences → Prop) (op : Operation) : Prop :=
  ∀ w values, Db.Preserves (fun tables => op.Issues tables w values) I w values

section

variable {I : Tables → Sequences → Prop} {S : Option (Tables × Sequences) → Prop}
  {C : Tables → Prop} {w : Write} {values : List Value} {op : Operation} {recipe : Recipe}
  {recipeId : Int} {name : String}

theorem execBound_with (h : Preserves C I w values) :
    Triple (fun m => With I S m ∧ C m.db.tables) (execBound w values) (fun _ => With I S)
      (fun _ => With I S) := by
  refine (execBound_triple (J := fun db saved => StoredWith I S db saved ∧ C db.tables)).conseq
    (fun _ h => h) ?_ (fun _ _ h => h.1)
  rintro _ m ⟨gap, db, ⟨⟨hI, hS⟩, hC⟩, hsql⟩
  exact ⟨h hC hI hsql, hS⟩

/-- A write that may be issued over any tables. -/
theorem execBound_keeps (h : Preserves C I w values) (hC : ∀ tables, C tables) :
    Keeps (With I S) (execBound w values) :=
  (execBound_with h).conseq (fun m hm => ⟨hm, hC m.db.tables⟩) (fun _ _ h => h) (fun _ _ h => h)

theorem replaceRecipeIngredients_with
    (hclear : Preserves C I .deleteRecipeIngredientsByRecipeId [.integer recipeId])
    (hfill : ∀ ingredient ∈ recipe.ingredients,
      Preserves C I .insertRecipeIngredient (ingredientValues recipeId ingredient))
    (hC : ∀ tables, C tables) :
    Keeps (With I S) (replaceRecipeIngredients recipeId recipe) := by
  rw [replaceRecipeIngredients_eq]
  refine (execBound_keeps hclear hC).bind fun _ => Triple.forM fun ingredient hmem => ?_
  rw [insertIngredient_eq]
  exact execBound_keeps (hfill ingredient hmem) hC

/-- Writes to the ingredients leave the recipes alone. -/
theorem holdsName_ingredients {gap : Nat} {db db' : Database}
    (hw : w = .deleteRecipeIngredientsByRecipeId ∧ values = [.integer recipeId] ∨
      w = .insertRecipeIngredient ∧ ∃ ingredient, values = ingredientValues recipeId ingredient)
    (h : w.sql (params values) gap db = .ok db') : db'.tables.recipes = db.tables.recipes := by
  rcases hw with ⟨rfl, rfl⟩ | ⟨rfl, ingredient, rfl⟩
  · rw [deleteRecipeIngredients_effect.mp h]
  · obtain ⟨-, ⟨-, rfl⟩ | ⟨-, -, rfl⟩⟩ := insertRecipeIngredient_effect.mp h
    · rfl
    · rfl

/-- Filling in the ingredients of the recipe that holds the name. -/
theorem fillNamed_with (hop : op.Preserves I)
    (hfills : ∀ tables, HoldsName tables recipeId recipe.name → op.Fills tables recipeId recipe) :
    Triple (fun m => With I S m ∧ HoldsName m.db.tables recipeId recipe.name)
      (replaceRecipeIngredients recipeId recipe) (fun _ => With I S) (fun _ => With I S) := by
  have hkeeps : Keeps (With (fun tables sequences => I tables sequences ∧
      HoldsName tables recipeId recipe.name) S) (replaceRecipeIngredients recipeId recipe) := by
    refine replaceRecipeIngredients_with (C := fun _ => True) ?_ ?_ fun _ => trivial
    · intro gap db db' _ hI hsql
      refine ⟨hop _ _ (.clear (hfills _ hI.2)) hI.1 hsql, ?_⟩
      rw [HoldsName, holdsName_ingredients (Or.inl ⟨rfl, rfl⟩) hsql]
      exact hI.2
    · intro ingredient hmem gap db db' _ hI hsql
      refine ⟨hop _ _ (.fill (hfills _ hI.2) hmem) hI.1 hsql, ?_⟩
      rw [HoldsName, holdsName_ingredients (Or.inr ⟨rfl, ingredient, rfl⟩) hsql]
      exact hI.2
  exact hkeeps.conseq (fun _ ⟨hm, hname⟩ => ⟨⟨hm.1, hname⟩, hm.2⟩) (fun _ _ hm => ⟨hm.1.1, hm.2⟩)
    (fun _ _ hm => ⟨hm.1.1, hm.2⟩)

/-- The id read back by name is one that holds the name. -/
theorem selectRecipeIdByName_holds {tables : Tables} {row : Row}
    (h : (Read.selectRecipeIdByName.sql (params [.text name]) tables).head? = some row) :
    HoldsName tables (getColumn row 0).getInt64 name := by
  have hp1 : params [.text name] 1 = .text name := rfl
  have hmem := List.mem_of_mem_head? (Option.mem_def.mpr h)
  simp only [Read.sql, kSelectRecipeIdByName, hp1, List.mem_map, List.mem_filter] at hmem
  obtain ⟨recipe, ⟨hrecipe, hname⟩, rfl⟩ := hmem
  have hname : recipe.name = name := by simpa using hname
  rw [HoldsName, ← hname]
  exact hrecipe

theorem insertRecipeBody_with (hop : op.Preserves I) (hinserts : op.Inserts recipe)
    (hfills : ∀ tables recipeId, HoldsName tables recipeId recipe.name →
      op.Fills tables recipeId recipe) :
    Keeps (With I S) (insertRecipeBody recipe) := by
  refine (execBound_keeps (C := fun tables => op.Issues tables _ _)
    (hop .insertRecipeIfAbsent [.text recipe.name]) fun _ => .insertRecipe hinserts).bind
    fun _ => ?_
  refine Triple.bind (firstBound_triple (J := StoredWith I S)) fun row => ?_
  cases row with
  | none => exact Triple.throw fun _ hm => hm.1
  | some row =>
      refine (fillNamed_with hop fun tables => hfills tables _).conseq ?_ (fun _ _ h => h)
        (fun _ _ h => h)
      rintro m ⟨hm, hrow⟩
      exact ⟨hm, selectRecipeIdByName_holds hrow.symm⟩

/-- The row that the insert makes is the one whose id is read back. -/
theorem createRecipe_holds {gap : Nat} {db db' : Database}
    (h : Write.createRecipe.sql (params [.text name]) gap db = .ok db') :
    HoldsName db'.tables db'.lastInsertRowid name := by
  obtain ⟨id, -, -, hdb⟩ := createRecipe_effect.mp h
  rw [hdb, HoldsName]
  simp

/-- The counter says that the row is there, under its new name. -/
theorem updateRecipeName_holds {gap : Nat} {db db' : Database}
    (h : Write.updateRecipeNameById.sql (params [.text name, .integer recipeId]) gap db = .ok db')
    (hone : db'.changes = 1) : HoldsName db'.tables recipeId name := by
  obtain ⟨-, hdb⟩ | ⟨⟨row, hrow, hid⟩, -, hdb⟩ := updateRecipeName_effect.mp h
  · simp [hdb] at hone
  · rw [hdb, HoldsName]
    exact mem_updateWhere.mpr (Or.inr ⟨row, hrow, decide_eq_true hid, by rw [← hid]⟩)

theorem createRecipe_preserves (hop : (Operation.createRecipe recipe).Preserves I) :
    Keeps (Rests I) (createRecipe recipe) := by
  rw [createRecipe_eq]
  apply transaction_keeps
  refine Triple.bind (Q := fun _ m => Works I m ∧
    HoldsName m.db.tables m.db.lastInsertRowid recipe.name) ?_ fun _ => ?_
  · refine (execBound_triple (J := StoredWith I _)).conseq (fun _ h => h) ?_ (fun _ _ h => h)
    intro _ m hm
    obtain ⟨gap, db, ⟨hI, hS⟩, hsql⟩ := hm
    exact ⟨⟨hop _ _ .createRecipe hI hsql, hS⟩, createRecipe_holds hsql⟩
  · have hlast : Triple (fun m : DBManager => Works I m ∧
        HoldsName m.db.tables m.db.lastInsertRowid recipe.name) getLastInsertRowid
        (fun recipeId m => Works I m ∧ HoldsName m.db.tables recipeId recipe.name)
        (fun _ => Works I) := fun _ hm => hm
    refine Triple.bind hlast fun recipeId => ?_
    refine Triple.bind (fillNamed_with hop fun _ hname => ⟨rfl, hname⟩) fun _ => ?_
    exact commit_keeps.bind fun _ => Keeps.pure

theorem updateRecipe_preserves (hop : (Operation.updateRecipe recipeId recipe).Preserves I) :
    Keeps (Rests I) (updateRecipe recipeId recipe) := by
  rw [updateRecipe_eq]
  apply transaction_keeps
  refine Triple.bind (Q := fun _ m => Works I m ∧
    (m.db.changes = 1 → HoldsName m.db.tables recipeId recipe.name)) ?_ fun _ => ?_
  · refine (execBound_triple (J := StoredWith I _)).conseq (fun _ h => h) ?_ (fun _ _ h => h)
    intro _ m hm
    obtain ⟨gap, db, ⟨hI, hS⟩, hsql⟩ := hm
    exact ⟨⟨hop _ _ .updateRecipe hI hsql, hS⟩, updateRecipeName_holds hsql⟩
  · have hchanges : Triple (fun m : DBManager => Works I m ∧
        (m.db.changes = 1 → HoldsName m.db.tables recipeId recipe.name)) getChanges
        (fun changes m => Works I m ∧
          (changes = 1 → HoldsName m.db.tables recipeId recipe.name))
        (fun _ => Works I) := fun _ hm => hm
    refine Triple.bind hchanges fun changes => ?_
    split
    · exact Triple.pure fun _ hm => hm.1
    · next hone =>
        have hone : changes = 1 := by simpa using hone
        refine Triple.bind ((fillNamed_with hop fun _ hname => ⟨rfl, rfl, hname⟩).conseq
          (fun _ hm => ⟨hm.1, hm.2 hone⟩) (fun _ _ h => h) (fun _ _ h => h)) fun _ => ?_
        exact commit_keeps.bind fun _ => Keeps.pure

/-- **What every issued write preserves, the operation preserves**, returning or throwing. -/
theorem Operation.run_preserves (hop : op.Preserves I) : Keeps (Rests I) op.run := by
  cases op with
  | insertProduct product =>
      refine Keeps.bind ?_ fun _ => Keeps.pure
      rw [insertProduct_eq]
      exact execBound_keeps (hop _ _) fun _ => .insertProduct
  | insertProducts products =>
      refine Keeps.bind (transaction_keeps (Keeps.bind (Triple.forM fun product hmem => ?_) fun _ =>
        commit_keeps)) fun _ => Keeps.pure
      rw [insertProduct_eq]
      exact execBound_keeps (hop _ _) fun _ => .insertProducts hmem
  | createProduct product =>
      refine Triple.map ?_
      rw [createProduct_eq]
      exact (execBound_keeps (hop _ _) fun _ => .createProduct).bind
        fun _ => getLastInsertRowid_keeps
  | getProduct productId => exact Triple.map (getProduct_keeps with_reads)
  | updateProduct productId product =>
      refine Triple.map ?_
      rw [updateProduct_eq]
      exact (execBound_keeps (hop _ _) fun _ => .updateProduct).bind fun _ => changesIsOne_keeps
  | deleteProduct productId =>
      refine Triple.map ?_
      rw [deleteProduct_eq]
      exact (execBound_keeps (hop _ _) fun _ => .deleteProduct).bind fun _ => changesIsOne_keeps
  | insertRecipe recipe =>
      refine Keeps.bind ?_ fun _ => Keeps.pure
      rw [insertRecipe_eq]
      refine transaction_keeps ((insertRecipeBody_with hop rfl ?_).bind fun _ => commit_keeps)
      exact fun _ _ hname => ⟨rfl, hname⟩
  | insertRecipes recipes =>
      refine Keeps.bind ?_ fun _ => Keeps.pure
      rw [insertRecipes_eq]
      refine transaction_keeps (Keeps.bind (Triple.forM fun recipe hmem => ?_) fun _ =>
        commit_keeps)
      exact insertRecipeBody_with hop hmem fun _ _ hname => ⟨hmem, hname⟩
  | createRecipe recipe => exact Triple.map (createRecipe_preserves hop)
  | getRecipe recipeId => exact Triple.map (getRecipe_keeps with_reads)
  | updateRecipe recipeId recipe => exact Triple.map (updateRecipe_preserves hop)
  | deleteRecipe recipeId =>
      refine Triple.map ?_
      rw [deleteRecipe_eq]
      exact (execBound_keeps (hop _ _) fun _ => .deleteRecipe).bind fun _ => changesIsOne_keeps
  | getAllProducts => exact Triple.map (getAllProducts_keeps with_reads)
  | getAllRecipes => exact Triple.map (fetchRecipes_keeps with_reads)
  | getCookableRecipes => exact Triple.map (fetchRecipes_keeps with_reads)
  | getRecipeIngredients recipeId => exact Triple.map (getRecipeIngredients_keeps with_reads)

end

/-! ## Product operations and recipe operations -/

/-- Does a statement write to `products`? -/
def Write.onProducts : Write → Bool
  | .insertProduct | .createProduct | .updateProductById | .deleteProductById => true
  | _ => false

def Operation.onProducts : Operation → Bool
  | .insertProduct _ | .insertProducts _ | .createProduct _ | .getProduct _ | .updateProduct _ _
  | .deleteProduct _ | .getAllProducts => true
  | _ => false

theorem Operation.Issues.onProducts {tables : Tables} {op : Operation} {w : Write}
    {values : List Value} (h : op.Issues tables w values) : w.onProducts = op.onProducts := by
  cases h with
  | insertRecipe h => cases op <;> first | rfl | exact h.elim
  | clear h => cases op <;> first | rfl | exact h.elim
  | fill h _ => cases op <;> first | rfl | exact h.elim
  | _ => rfl

/-- The tables a statement does not write to. -/
def OtherTables (onProducts : Bool) (before after : Tables) : Prop :=
  if onProducts = true then
    after.recipes = before.recipes ∧ after.recipeIngredients = before.recipeIngredients
  else after.products = before.products

theorem Operation.Issues.otherTables {op : Operation} {w : Write} {values : List Value}
    {gap : Nat} {db db' : Database} (h : op.Issues db.tables w values)
    (hsql : w.sql (params values) gap db = .ok db') :
    OtherTables op.onProducts db.tables db'.tables := by
  rw [← h.onProducts]
  cases h with
  | insertProduct | insertProducts _ =>
      obtain ⟨id, -, -, rfl⟩ := insertProduct_effect.mp hsql
      exact ⟨rfl, rfl⟩
  | createProduct =>
      obtain ⟨id, -, -, -, rfl⟩ := createProduct_effect.mp hsql
      exact ⟨rfl, rfl⟩
  | updateProduct =>
      rcases updateProduct_effect.mp hsql with ⟨-, rfl⟩ | ⟨-, -, -, rfl⟩ <;> exact ⟨rfl, rfl⟩
  | deleteProduct =>
      rw [deleteProduct_effect.mp hsql]
      exact ⟨rfl, rfl⟩
  | insertRecipe _ =>
      obtain ⟨id, -, ⟨-, rfl⟩ | ⟨-, rfl⟩⟩ := insertRecipeIfAbsent_effect.mp hsql <;> rfl
  | createRecipe =>
      obtain ⟨id, -, -, rfl⟩ := createRecipe_effect.mp hsql
      rfl
  | updateRecipe =>
      rcases updateRecipeName_effect.mp hsql with ⟨-, rfl⟩ | ⟨-, -, rfl⟩ <;> rfl
  | deleteRecipe =>
      rw [deleteRecipe_effect.mp hsql]
      rfl
  | clear _ =>
      rw [deleteRecipeIngredients_effect.mp hsql]
      rfl
  | fill _ _ =>
      obtain ⟨-, ⟨-, rfl⟩ | ⟨-, -, rfl⟩⟩ := insertRecipeIngredient_effect.mp hsql <;> rfl

theorem OtherTables.refl (onProducts : Bool) (tables : Tables) :
    OtherTables onProducts tables tables := by
  unfold OtherTables
  split
  · exact ⟨rfl, rfl⟩
  · rfl

theorem OtherTables.trans {onProducts : Bool} {t₁ t₂ t₃ : Tables}
    (h : OtherTables onProducts t₁ t₂) (h' : OtherTables onProducts t₂ t₃) :
    OtherTables onProducts t₁ t₃ := by
  unfold OtherTables at h h' ⊢
  split at h
  · next hp =>
      rw [if_pos hp] at h' ⊢
      exact ⟨h'.1.trans h.1, h'.2.trans h.2⟩
  · next hp =>
      rw [if_neg hp] at h' ⊢
      exact h'.trans h

/-- **No product operation touches a recipe or an ingredient, and no recipe operation a product.** -/
theorem Operation.run_otherTables (op : Operation) (t : Tables) :
    Keeps (Rests fun tables _ => OtherTables op.onProducts t tables) op.run :=
  op.run_preserves fun _ _ _ _ _ hissued h hsql => h.trans (hissued.otherTables hsql)

/-! ## Updates and deletes -/

/-- What an update or delete is about. -/
inductive Target where
  | product (productId : Int)
  | recipe (recipeId : Int)
  deriving DecidableEq, Repr

def Operation.target : Operation → Option Target
  | .updateProduct productId _ | .deleteProduct productId => some (.product productId)
  | .updateRecipe recipeId _ | .deleteRecipe recipeId => some (.recipe recipeId)
  | _ => none

def HasProduct (productId : Int) (tables : Tables) : Prop :=
  ∃ row ∈ tables.products, row.id = productId

instance (productId : Int) (tables : Tables) : Decidable (HasProduct productId tables) :=
  List.decidableBEx _ _

def Target.Stored : Target → Tables → Prop
  | .product productId => HasProduct productId
  | .recipe recipeId => HasRecipe recipeId

/-- Every row but those of the target is as before: of a product its one row, of a recipe its row
and its ingredients. -/
def Target.SameElsewhere : Target → Tables → Tables → Prop
  | .product productId, before, after =>
      deleteWhere (fun row => decide (row.id = productId)) after.products =
          deleteWhere (fun row => decide (row.id = productId)) before.products ∧
        after.recipes = before.recipes ∧ after.recipeIngredients = before.recipeIngredients
  | .recipe recipeId, before, after =>
      after.products = before.products ∧
        deleteWhere (fun row => decide (row.id = recipeId)) after.recipes =
          deleteWhere (fun row => decide (row.id = recipeId)) before.recipes ∧
        deleteWhere (fun row => decide (row.recipeId = recipeId)) after.recipeIngredients =
          deleteWhere (fun row => decide (row.recipeId = recipeId)) before.recipeIngredients

theorem Target.SameElsewhere.refl (target : Target) (tables : Tables) :
    target.SameElsewhere tables tables := by
  cases target <;> exact ⟨rfl, rfl, rfl⟩

theorem Target.SameElsewhere.trans {target : Target} {t₁ t₂ t₃ : Tables}
    (h : target.SameElsewhere t₁ t₂) (h' : target.SameElsewhere t₂ t₃) :
    target.SameElsewhere t₁ t₃ := by
  cases target <;>
    exact ⟨h'.1.trans h.1, h'.2.1.trans h.2.1, h'.2.2.trans h.2.2⟩

/-- An operation with a target fills in the ingredients of no other recipe. -/
theorem Operation.Fills.target_eq {tables : Tables} {op : Operation} {recipeId : Int}
    {recipe : Recipe} {target : Target} (h : op.Fills tables recipeId recipe)
    (hop : op.target = some target) : target = .recipe recipeId := by
  cases op with
  | updateRecipe recipeId' recipe' =>
      obtain ⟨rfl, -, -⟩ := h
      cases hop
      rfl
  | insertRecipe _ | insertRecipes _ | createRecipe _ => cases hop
  | _ => exact h.elim

theorem Operation.Issues.sameElsewhere {op : Operation} {target : Target} {w : Write}
    {values : List Value} {gap : Nat} {db db' : Database} (hop : op.target = some target)
    (h : op.Issues db.tables w values) (hsql : w.sql (params values) gap db = .ok db') :
    target.SameElsewhere db.tables db'.tables := by
  cases h with
  | insertProduct | insertProducts _ | createProduct | createRecipe => cases hop
  | updateProduct =>
      cases hop
      rcases updateProduct_effect.mp hsql with ⟨-, rfl⟩ | ⟨-, -, -, rfl⟩
      · exact Target.SameElsewhere.refl _ _
      · exact ⟨deleteWhere_updateWhere fun row h => ⟨h, h⟩, rfl, rfl⟩
  | deleteProduct =>
      cases hop
      rw [deleteProduct_effect.mp hsql]
      exact ⟨deleteWhere_deleteWhere fun _ h => h, rfl, rfl⟩
  | insertRecipe h => cases op <;> first | exact h.elim | cases hop
  | updateRecipe =>
      cases hop
      rcases updateRecipeName_effect.mp hsql with ⟨-, rfl⟩ | ⟨-, -, rfl⟩
      · exact Target.SameElsewhere.refl _ _
      · exact ⟨rfl, deleteWhere_updateWhere fun row h => ⟨h, h⟩, rfl⟩
  | deleteRecipe =>
      cases hop
      rw [deleteRecipe_effect.mp hsql]
      refine ⟨rfl, deleteWhere_deleteWhere fun _ h => h, deleteWhere_deleteWhere fun _ h => ?_⟩
      exact (Bool.and_eq_true_iff.mp h).1
  | clear h =>
      obtain rfl := h.target_eq hop
      rw [deleteRecipeIngredients_effect.mp hsql]
      exact ⟨rfl, rfl, deleteWhere_deleteWhere fun _ h => h⟩
  | fill h _ =>
      obtain rfl := h.target_eq hop
      obtain ⟨-, ⟨-, rfl⟩ | ⟨-, -, rfl⟩⟩ := insertRecipeIngredient_effect.mp hsql
      · refine ⟨rfl, rfl, deleteWhere_updateWhere fun row hkey => ?_⟩
        have hkey : row.recipeId = _ := congrArg Prod.fst (of_decide_eq_true hkey)
        exact ⟨decide_eq_true hkey, decide_eq_true hkey⟩
      · exact ⟨rfl, rfl, deleteWhere_append (decide_eq_true rfl)⟩

/-- **An update or delete changes nothing outside its target**, however it ends. -/
theorem Operation.run_sameElsewhere {op : Operation} {target : Target}
    (hop : op.target = some target) (t : Tables) :
    Keeps (Rests fun tables _ => target.SameElsewhere t tables) op.run :=
  op.run_preserves fun _ _ _ _ _ hissued h hsql => h.trans (hissued.sameElsewhere hop hsql)

/-! ## What an update or delete returns -/

section

variable {t : Tables} {q : Sequences} {productId recipeId : Int}

/-- Counting the selected rows tells whether one is there, since no id occurs twice. -/
theorem countP_id_eq_one {α : Type} {key : α → Int} {rows : List α} {id : Int}
    (h : (rows.map key).Nodup) :
    (rows.countP fun row => decide (key row = id)) = 1 ↔ ∃ row ∈ rows, key row = id := by
  constructor
  · intro hone
    obtain ⟨row, hrow, hid⟩ := List.countP_pos_iff.mp (hone ▸ Nat.one_pos)
    exact ⟨row, hrow, of_decide_eq_true hid⟩
  · rintro ⟨row, hrow, rfl⟩
    exact countP_key_eq h hrow

/-- The last line of an update or delete returns whether one row was changed. -/
theorem changesIsOne_triple {P : Prop} :
    Triple (fun m => m.db.changes = 1 ↔ P) (do return (← getChanges) == 1)
      (fun done _ => done = true ↔ P) (fun _ _ => True) := by
  intro m hm
  show (m.db.changes == 1) = true ↔ P
  rw [beq_iff_eq, hm]

/-- A statement that changes one row exactly when `P`. -/
theorem execBound_changes {P : Prop} {w : Write} {values : List Value}
    (h : ∀ gap db db', Store.Valid db.tables db.sequences → db.tables = t →
      w.sql (params values) gap db = .ok db' → (db'.changes = 1 ↔ P)) :
    Triple (fun m => Store.Valid m.db.tables m.db.sequences ∧ m.db.tables = t ∧
        m.db.sequences = q) (execBound w values)
      (fun _ m => m.db.changes = 1 ↔ P) (fun _ _ => True) := by
  refine execBound_atomic.conseq (fun _ h => h) ?_ (fun _ _ _ => trivial)
  rintro _ m ⟨gap, db, hv, ht, hsql⟩
  exact h gap db m.db hv ht hsql

theorem updateProduct_exact (product : Product) :
    Triple (fun m => Store.Valid m.db.tables m.db.sequences ∧ m.db.tables = t ∧
        m.db.sequences = q) (updateProduct productId product)
      (fun updated _ => updated = true ↔ HasProduct productId t) (fun _ _ => True) := by
  rw [updateProduct_eq]
  refine Triple.bind (execBound_changes ?_) fun _ => changesIsOne_triple
  rintro gap db db' hv rfl hsql
  rcases updateProduct_effect.mp hsql with ⟨hno, rfl⟩ | ⟨hex, -, -, rfl⟩
  · have hnot : ¬ HasProduct productId db.tables := fun ⟨row, hrow, hid⟩ => hno row hrow hid
    simp [hnot]
  · exact countP_id_eq_one hv.productIds

theorem deleteProduct_exact :
    Triple (fun m => Store.Valid m.db.tables m.db.sequences ∧ m.db.tables = t ∧
        m.db.sequences = q) (deleteProduct productId)
      (fun deleted _ => deleted = true ↔ HasProduct productId t) (fun _ _ => True) := by
  rw [deleteProduct_eq]
  refine Triple.bind (execBound_changes ?_) fun _ => changesIsOne_triple
  rintro gap db db' hv rfl hsql
  rw [deleteProduct_effect.mp hsql]
  exact countP_id_eq_one hv.productIds

/-- The cascade does not count: `changes` is about the recipe row. -/
theorem deleteRecipe_exact :
    Triple (fun m => Store.Valid m.db.tables m.db.sequences ∧ m.db.tables = t ∧
        m.db.sequences = q) (deleteRecipe recipeId)
      (fun deleted _ => deleted = true ↔ HasRecipe recipeId t) (fun _ _ => True) := by
  rw [deleteRecipe_eq]
  refine Triple.bind (execBound_changes ?_) fun _ => changesIsOne_triple
  rintro gap db db' hv rfl hsql
  rw [deleteRecipe_effect.mp hsql]
  exact countP_id_eq_one hv.recipeIds

/-- No ingredient outlives its recipe: without the recipe there was none. -/
theorem deleteRecipe_leaves_none :
    Triple (fun m => Store.Valid m.db.tables m.db.sequences ∧ m.db.tables = t ∧
        m.db.sequences = q) (deleteRecipe recipeId)
      (fun _ m => ∀ i ∈ m.db.tables.recipeIngredients, i.recipeId ≠ recipeId)
      (fun _ _ => True) := by
  rw [deleteRecipe_eq]
  refine Triple.bind (Q := fun _ m => ∀ i ∈ m.db.tables.recipeIngredients, i.recipeId ≠ recipeId)
    ?_ fun _ => changesIsOne_keeps.conseq (fun _ h => h) (fun _ _ h => h) (fun _ _ _ => trivial)
  refine execBound_atomic.conseq (fun _ h => h) ?_ (fun _ _ _ => trivial)
  rintro _ m ⟨gap, db, hv, rfl, hsql⟩ i hi rfl
  rw [deleteRecipe_effect.mp hsql] at hi
  obtain ⟨hi, hkeep⟩ := mem_deleteWhere.mp hi
  obtain ⟨r, hr, hid⟩ := hv.ingredientRecipes i hi
  have hany : (db.tables.recipes.any fun recipe => decide (recipe.id = i.recipeId)) = true :=
    any_decide_iff.mpr ⟨r, hr, hid⟩
  simp [hany] at hkeep

/-- Inside the transaction the counter is read before anything else can move it. -/
theorem updateRecipe_exact (recipe : Recipe) :
    Triple (fun m => Store.Valid m.db.tables m.db.sequences ∧ m.db.tables = t ∧
        m.db.sequences = q) (updateRecipe recipeId recipe)
      (fun updated _ => updated = true ↔ HasRecipe recipeId t) (fun _ _ => True) := by
  rw [updateRecipe_eq]
  refine Triple.bind (Q := fun _ m => Store.Valid m.db.tables m.db.sequences ∧ m.db.tables = t ∧
    m.db.sequences = q) ?_ fun _ => Triple.ensuring ?_
  · exact (execDirect_triple (J := fun db _ => Store.Valid db.tables db.sequences ∧ db.tables = t ∧
      db.sequences = q) (K := fun db _ => Store.Valid db.tables db.sequences ∧ db.tables = t ∧
      db.sequences = q) (f := fun m => { m with saved := some (m.db.tables, m.db.sequences) })
      fun _ h => h).conseq (fun _ h => h) (fun _ _ h => h) (fun _ _ _ => trivial)
  refine Triple.bind (execBound_changes (P := HasRecipe recipeId t) ?_) fun _ => ?_
  · rintro gap db db' hv rfl hsql
    rcases updateRecipeName_effect.mp hsql with ⟨hno, rfl⟩ | ⟨hex, -, rfl⟩
    · have hnot : ¬ HasRecipe recipeId db.tables := fun ⟨row, hrow, hid⟩ => hno row hrow hid
      simp [hnot]
    · exact countP_id_eq_one hv.recipeIds
  · refine Triple.bind (Q := fun changes _ => changes = 1 ↔ HasRecipe recipeId t)
      (fun _ hm => hm) fun changes => ?_
    split
    · next hne =>
        refine Triple.pure fun _ hiff => ?_
        simp only [bne_iff_ne, ne_eq] at hne
        simp [← hiff, hne]
    · next heq =>
        have hone : changes = 1 := by simpa using heq
        refine Triple.conseq (P := fun _ => HasRecipe recipeId t) ?_ (fun _ hiff => hiff.mp hone)
          (fun _ _ h => h) (fun _ _ h => h)
        exact Triple.const.bind fun _ => Triple.const.bind fun _ => Triple.pure fun _ h => by simp [h]

/-- **An update or delete returns whether its target was stored.** -/
theorem Operation.run_exact {op : Operation} {target : Target} (hop : op.target = some target) :
    Triple (fun m => Store.Valid m.db.tables m.db.sequences ∧ m.db.tables = t ∧
        m.db.sequences = q) op.run
      (fun r _ => ∃ b, r = .bool b ∧ (b = true ↔ target.Stored t)) (fun _ _ => True) := by
  have hmap : ∀ {body : DbM Bool} {P : Prop},
      Triple (fun m => Store.Valid m.db.tables m.db.sequences ∧ m.db.tables = t ∧
        m.db.sequences = q) body (fun done _ => done = true ↔ P) (fun _ _ => True) →
      Triple (fun m => Store.Valid m.db.tables m.db.sequences ∧ m.db.tables = t ∧
        m.db.sequences = q) (Returned.bool <$> body)
        (fun r _ => ∃ b, r = .bool b ∧ (b = true ↔ P)) (fun _ _ => True) := fun h =>
    Triple.map (h.conseq (fun _ h => h) (fun b _ hb => ⟨b, rfl, hb⟩) (fun _ _ h => h))
  cases op with
  | updateProduct productId product => cases hop; exact hmap (updateProduct_exact product)
  | deleteProduct productId => cases hop; exact hmap deleteProduct_exact
  | updateRecipe recipeId recipe => cases hop; exact hmap (updateRecipe_exact recipe)
  | deleteRecipe recipeId => cases hop; exact hmap deleteRecipe_exact
  | _ => cases hop

theorem Operation.run_leavesNone (recipeId : Int) :
    Triple (fun m => Store.Valid m.db.tables m.db.sequences ∧ m.db.tables = t ∧
        m.db.sequences = q) (Operation.deleteRecipe recipeId).run
      (fun _ m => ∀ i ∈ m.db.tables.recipeIngredients, i.recipeId ≠ recipeId)
      (fun _ _ => True) := Triple.map deleteRecipe_leaves_none

end

end RecipesCore.Db
