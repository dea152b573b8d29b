import RecipesCore.Db.Store

/-!
# Invariants over whole operations

What survives every call survives every operation, however the operation ends. `KeptByCalls` asks
this of a property `P` of the manager for single calls, and `KeptByTransactions` for operations:
one property holds between calls and another while a transaction is open. Each operation is then
one line, following its normal form. `Rests I` and `Works I` are the instance for the stored data:
while a transaction is open, both the tables and what a rollback would restore satisfy `I`.
-/

namespace RecipesCore.Db

open RecipesCore.Logic RecipesCore.Logic.Program
open RecipesCore.Types
open DBManager

/-- An operation or a part of one keeps `P`, whether it returns or throws. -/
abbrev Keeps {α : Type} (P : DBManager → Prop) (body : DbM α) : Prop :=
  Triple P body (fun _ => P) (fun _ => P)

/-- What keeps `P` may stand before anything that does. -/
theorem Keeps.bind {α β : Type} {P : DBManager → Prop} {body : DbM α} {k : α → DbM β}
    {R : β → DBManager → Prop} (h : Keeps P body) (hk : ∀ a, Triple P (k a) R (fun _ => P)) :
    Triple P (body >>= k) R (fun _ => P) := Triple.bind h hk

theorem Keeps.pure {α : Type} {P : DBManager → Prop} {a : α} :
    Keeps P (Pure.pure a : DbM α) := Triple.pure fun _ hm => hm

theorem getLastInsertRowid_keeps {P : DBManager → Prop} : Keeps P getLastInsertRowid :=
  fun _ hm => hm

theorem getChanges_keeps {P : DBManager → Prop} : Keeps P getChanges := fun _ hm => hm

structure KeptByReads (P : DBManager → Prop) : Prop where
  first {r : Read} {values : List Sqlite.Value} : Keeps P (firstBound r values)
  query {β : Type} {r : Read} {values : List Sqlite.Value} {visit : β → Sqlite.Row → β}
    {start : β} : Keeps P (queryBound r values visit start)

/-- What depends neither on the `SELECT`s' statements nor on the steps ahead. -/
theorem keptByReads_of {P : DBManager → Prop}
    (hstatement : ∀ m r st, P m → P (m.setStatement (.read r) st))
    (henvironment : ∀ m environment, P m → P (m.withEnvironment environment)) : KeptByReads P := by
  have hprepare : ∀ {r values}, Keeps P (prepare (.read r) values) := by
    intro r values m hm
    rw [runOn_prepare]
    cases m.failureOf (.read r) with
    | some exception => exact hstatement m r _ hm
    | none => exact hstatement m r _ hm
  have hstep : ∀ {r}, Keeps P (step (.read r)) := by
    intro r m hm
    rcases nextOutcome_cases m.environment with ⟨gap, rest, h⟩ | ⟨exception, rest, h⟩
    · rw [runOn_step h]
      exact henvironment m rest hm
    · rw [runOn_step_fail h]
      exact hstatement _ r _ (henvironment m rest hm)
  have hrows : ∀ {r}, Keeps P (resultRows r) := fun _ hm => hm
  have hthrough : ∀ {β : Type} {r : Read} (visit : β → Sqlite.Row → β) (rows : List Sqlite.Row)
      (acc : β), Keeps P (stepThrough r visit acc rows) := by
    intro β r visit rows
    induction rows with
    | nil => exact fun acc => hstep.bind fun _ => Keeps.pure
    | cons row rest ih => exact fun acc => hstep.bind fun _ => ih (visit acc row)
  exact
    { first := hprepare.bind fun _ => hstep.bind fun _ => hrows.bind fun _ => Keeps.pure
      query := hprepare.bind fun _ => hrows.bind fun rows => hthrough _ rows _ }

structure KeptByCalls (A : Admits) (P : DBManager → Prop) : Prop extends KeptByReads P where
  exec {w : Write} {values : List Sqlite.Value} :
    Issued A w values → Keeps P (execBound w values)

structure KeptByTransactions (A : Admits) (inside outside : DBManager → Prop) : Prop where
  inner : KeptByCalls A inside
  outer : KeptByCalls A outside
  commit : Keeps inside commit
  transaction {α : Type} {block : DbM α} :
    Keeps inside block → Keeps outside (transaction block)

/-! ## What is admitted -/

def Recipe.Admitted (A : Admits) (recipe : Recipe) : Prop :=
  A.recipe recipe.name ∧ ∀ ingredient ∈ recipe.ingredients, A.product ingredient

/-- What an operation may store is admitted. -/
def Operation.Admitted (A : Admits) : Operation → Prop
  | .insertProduct product | .createProduct product | .updateProduct _ product => A.product product
  | .insertProducts products => ∀ product ∈ products, A.product product
  | .insertRecipe recipe | .createRecipe recipe | .updateRecipe _ recipe =>
      Recipe.Admitted A recipe
  | .insertRecipes recipes => ∀ recipe ∈ recipes, Recipe.Admitted A recipe
  | _ => True

/-- The products and ingredients among the arguments. -/
def Operation.products : Operation → List Product
  | .insertProduct product | .createProduct product | .updateProduct _ product => [product]
  | .insertProducts products => products
  | .insertRecipe recipe | .createRecipe recipe | .updateRecipe _ recipe => recipe.ingredients
  | .insertRecipes recipes => recipes.flatMap Recipe.ingredients
  | _ => []

/-- Where everything is admitted, so is every recipe. -/
theorem Recipe.admitted_all (recipe : Recipe) : Recipe.Admitted {} recipe :=
  ⟨trivial, fun _ _ => trivial⟩

/-- And every operation. -/
theorem Operation.admitted_all (op : Operation) : op.Admitted {} := by
  cases op <;> simp [Admitted, Recipe.Admitted]

/-- An operation is admitted by what its products are, if names do not matter. -/
theorem Operation.admitted_of_products {P : Product → Prop} (op : Operation)
    (h : ∀ product ∈ op.products, P product) : op.Admitted { product := P } := by
  cases op with
  | insertProduct product | createProduct product | updateProduct _ product =>
      exact h product (List.mem_singleton.mpr rfl)
  | insertProducts products => exact h
  | insertRecipe recipe | createRecipe recipe | updateRecipe _ recipe => exact ⟨trivial, h⟩
  | insertRecipes recipes =>
      exact fun recipe hmem => ⟨trivial, fun i hi => h i (List.mem_flatMap.mpr ⟨recipe, hmem, hi⟩)⟩
  | _ => trivial

section

variable {A : Admits} {P inside outside : DBManager → Prop} {recipeId productId : Int}
  {product : Product} {recipe : Recipe}

/-! ## Parts of operations -/

theorem insertIngredient_keeps (hP : KeptByCalls A P) (h : A.product product) :
    Keeps P (insertIngredient recipeId product) := by
  rw [insertIngredient_eq]
  exact hP.exec (.insertRecipeIngredient recipeId h)

/-- One delete and one insert for each ingredient. -/
theorem replaceRecipeIngredients_keeps (hP : KeptByCalls A P)
    (h : ∀ ingredient ∈ recipe.ingredients, A.product ingredient) :
    Keeps P (replaceRecipeIngredients recipeId recipe) := by
  rw [replaceRecipeIngredients_eq]
  refine (hP.exec (.deleteRecipeIngredientsByRecipeId recipeId)).bind fun _ => ?_
  exact Triple.forM fun ingredient hmem => insertIngredient_keeps hP (h ingredient hmem)

/-- The recipe, its id and its ingredients. -/
theorem insertRecipeBody_keeps (hP : KeptByCalls A P) (h : Recipe.Admitted A recipe) :
    Keeps P (insertRecipeBody recipe) := by
  refine (hP.exec (.insertRecipeIfAbsent h.1)).bind fun _ => hP.first.bind fun row => ?_
  cases row with
  | none => exact Triple.throw fun _ hm => hm
  | some row => exact replaceRecipeIngredients_keeps hP h.2

/-- The last line of an update or delete. -/
theorem changesIsOne_keeps : Keeps P (do return (← getChanges) == 1) :=
  getChanges_keeps.bind fun _ => Keeps.pure

/-! ## Operations -/

theorem insertProduct_keeps (hP : KeptByCalls A P) (h : A.product product) :
    Keeps P (insertProduct product) := by
  rw [insertProduct_eq]
  exact hP.exec (.insertProduct h)

/-- A new product has to be admitted; asking for its id changes nothing. -/
theorem createProduct_keeps (hP : KeptByCalls A P) (h : A.product product) :
    Keeps P (createProduct product) := by
  rw [createProduct_eq]
  exact (hP.exec (.createProduct h)).bind fun _ => getLastInsertRowid_keeps

theorem getProduct_keeps (hP : KeptByReads P) : Keeps P (getProduct productId) := by
  rw [getProduct_eq]
  exact hP.first.bind fun _ => Keeps.pure

theorem updateProduct_keeps (hP : KeptByCalls A P) (h : A.product product) :
    Keeps P (updateProduct productId product) := by
  rw [updateProduct_eq]
  exact (hP.exec (.updateProductById productId h)).bind fun _ => changesIsOne_keeps

theorem deleteProduct_keeps (hP : KeptByCalls A P) : Keeps P (deleteProduct productId) := by
  rw [deleteProduct_eq]
  exact (hP.exec (.deleteProductById productId)).bind fun _ => changesIsOne_keeps

theorem getAllProducts_keeps (hP : KeptByReads P) : Keeps P getAllProducts := by
  rw [getAllProducts_eq]
  exact hP.query

theorem insertRecipe_keeps (hP : KeptByTransactions A inside outside)
    (h : Recipe.Admitted A recipe) : Keeps outside (insertRecipe recipe) := by
  rw [insertRecipe_eq]
  exact hP.transaction ((insertRecipeBody_keeps hP.inner h).bind fun _ => hP.commit)

/-- Every recipe of a batch has to be admitted. -/
theorem insertRecipes_keeps (hP : KeptByTransactions A inside outside) {recipes : List Recipe}
    (h : ∀ recipe ∈ recipes, Recipe.Admitted A recipe) : Keeps outside (insertRecipes recipes) := by
  rw [insertRecipes_eq]
  refine hP.transaction (Keeps.bind (Triple.forM fun recipe hmem => ?_) fun _ => hP.commit)
  exact insertRecipeBody_keeps hP.inner (h recipe hmem)

/-- Inside its transaction a recipe may be without its ingredients for a while. -/
theorem createRecipe_keeps (hP : KeptByTransactions A inside outside)
    (h : Recipe.Admitted A recipe) : Keeps outside (createRecipe recipe) := by
  rw [createRecipe_eq]
  refine hP.transaction ((hP.inner.exec (.createRecipe h.1)).bind fun _ => ?_)
  refine getLastInsertRowid_keeps.bind fun recipeId => ?_
  refine (replaceRecipeIngredients_keeps hP.inner h.2).bind fun _ => ?_
  exact hP.commit.bind fun _ => Keeps.pure

/-- Inside the transaction the new ingredients come one by one. -/
theorem updateRecipe_keeps (hP : KeptByTransactions A inside outside)
    (h : Recipe.Admitted A recipe) : Keeps outside (updateRecipe recipeId recipe) := by
  rw [updateRecipe_eq]
  refine hP.transaction ((hP.inner.exec (.updateRecipeNameById recipeId h.1)).bind fun _ => ?_)
  refine getChanges_keeps.bind fun changes => ?_
  split
  · exact Keeps.pure
  · refine (replaceRecipeIngredients_keeps hP.inner h.2).bind fun _ => ?_
    exact hP.commit.bind fun _ => Keeps.pure

theorem deleteRecipe_keeps (hP : KeptByCalls A P) : Keeps P (deleteRecipe recipeId) := by
  rw [deleteRecipe_eq]
  exact (hP.exec (.deleteRecipeById recipeId)).bind fun _ => changesIsOne_keeps

/-- The readers of recipes make one `SELECT`. -/
theorem fetchRecipes_keeps (hP : KeptByReads P) {r : Read} :
    Keeps P (fetchRecipes r none) := by
  rw [fetchRecipes_none_eq]
  exact hP.query.bind fun _ => Keeps.pure

theorem getRecipe_keeps (hP : KeptByReads P) : Keeps P (getRecipe recipeId) := by
  rw [getRecipe_eq]
  exact hP.query.bind fun _ => Keeps.pure

theorem getRecipeIngredients_keeps (hP : KeptByReads P) :
    Keeps P (getRecipeIngredients recipeId) := by
  rw [getRecipeIngredients_eq]
  exact hP.query

/-- **What survives every call survives every operation**, returning or throwing. -/
theorem Operation.run_keeps (hP : KeptByTransactions A inside outside) (op : Operation)
    (h : op.Admitted A) : Keeps outside op.run := by
  cases op with
  | insertProduct product =>
      exact (insertProduct_keeps hP.outer h).bind fun _ => Keeps.pure
  | insertProducts products =>
      refine (hP.transaction ?_).bind fun _ => Keeps.pure
      exact Keeps.bind (Triple.forM fun product hmem => insertProduct_keeps hP.inner (h product hmem))
        fun _ => hP.commit
  | createProduct product => exact Triple.map (createProduct_keeps hP.outer h)
  | getProduct productId => exact Triple.map (getProduct_keeps hP.outer.toKeptByReads)
  | updateProduct productId product => exact Triple.map (updateProduct_keeps hP.outer h)
  | deleteProduct productId => exact Triple.map (deleteProduct_keeps hP.outer)
  | insertRecipe recipe => exact (insertRecipe_keeps hP h).bind fun _ => Keeps.pure
  | insertRecipes recipes => exact (insertRecipes_keeps hP h).bind fun _ => Keeps.pure
  | createRecipe recipe => exact Triple.map (createRecipe_keeps hP h)
  | getRecipe recipeId => exact Triple.map (getRecipe_keeps hP.outer.toKeptByReads)
  | updateRecipe recipeId recipe => exact Triple.map (updateRecipe_keeps hP h)
  | deleteRecipe recipeId => exact Triple.map (deleteRecipe_keeps hP.outer)
  | getAllProducts => exact Triple.map (getAllProducts_keeps hP.outer.toKeptByReads)
  | getAllRecipes => exact Triple.map (fetchRecipes_keeps hP.outer.toKeptByReads)
  | getCookableRecipes => exact Triple.map (fetchRecipes_keeps hP.outer.toKeptByReads)
  | getRecipeIngredients recipeId => exact Triple.map (getRecipeIngredients_keeps hP.outer.toKeptByReads)

end

/-! ## Stored data -/

/-- `I` of the tables, and `S` of what a rollback would restore. -/
def StoredWith (I : Tables → Sequences → Prop) (S : Option (Tables × Sequences) → Prop)
    (db : Database) (saved : Option (Tables × Sequences)) : Prop :=
  I db.tables db.sequences ∧ S saved

abbrev With (I : Tables → Sequences → Prop) (S : Option (Tables × Sequences) → Prop)
    (m : DBManager) : Prop :=
  StoredWith I S m.db m.saved

/-- Between calls no transaction is open. -/
abbrev Rests (I : Tables → Sequences → Prop) := With I fun saved => saved = none

/-- In a call a rollback is safe at any moment. -/
abbrev Works (I : Tables → Sequences → Prop) :=
  With I fun saved => ∀ snapshot ∈ saved, I snapshot.1 snapshot.2

section

variable {A : Admits} {I : Tables → Sequences → Prop}
  {S : Option (Tables × Sequences) → Prop}

/-- Neither the `SELECT`s nor the steps ahead matter to the stored data. -/
theorem with_reads : KeptByReads (With I S) :=
  keptByReads_of (fun _ _ _ h => h) fun _ _ h => h

/-- A closed invariant next to anything that only speaks about the open transaction. -/
theorem with_kept (hI : Closed A I) : KeptByCalls A (With I S) where
  toKeptByReads := with_reads
  exec hw := by
    refine (execBound_triple (J := StoredWith I S)).conseq (fun _ h => h) ?_ (fun _ _ h => h)
    rintro _ m ⟨gap, db, ⟨hdb, hsaved⟩, hsql⟩
    exact ⟨hI hw hdb hsql, hsaved⟩

/-- A rollback goes back to a database at rest. -/
theorem rests_rollback {m : DBManager} (h : Works I m) : Rests I (rollbackUnlessCommitted m) := by
  obtain ⟨hdb, hsaved⟩ := h
  unfold rollbackUnlessCommitted
  split
  · next hnone => exact ⟨hdb, hnone⟩
  · next tables sequences hsome => exact ⟨hsaved _ hsome, rfl⟩

/-- A commit keeps what holds of the data. -/
theorem commit_keeps : Keeps (Works I) commit :=
  execDirect_triple (J := StoredWith I _) (K := StoredWith I _) fun _ hm => ⟨hm.1, by simp⟩

/-- **A transaction.** Either its block committed, or leaving it restores what was saved. -/
theorem transaction_keeps {α : Type} {block : DbM α} (h : Keeps (Works I) block) :
    Keeps (Rests I) (transaction block) := by
  refine Triple.bind (Q := fun _ => Works I) ?_ fun _ => ?_
  · refine (execDirect_triple (J := StoredWith I fun saved => saved = none)
      (K := StoredWith I fun saved => ∀ snapshot ∈ saved, I snapshot.1 snapshot.2) ?_).conseq
      (fun _ h => h) (fun _ _ h => h) (fun _ _ h => h)
    rintro m ⟨hI, -⟩
    exact ⟨hI, by rintro _ ⟨⟩; exact hI⟩
  · exact Triple.ensuring (h.conseq (fun _ h => h) (fun _ _ hm => rests_rollback hm)
      (fun _ _ hm => rests_rollback hm))

/-- **What the statements keep holds at rest**, in and out of transactions. -/
theorem rests_kept (hI : Closed A I) : KeptByTransactions A (Works I) (Rests I) where
  inner := with_kept hI
  outer := with_kept hI
  commit := commit_keeps
  transaction := transaction_keeps

end

end RecipesCore.Db
