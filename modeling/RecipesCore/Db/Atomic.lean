import RecipesCore.Db.Invariants

/-!
# Atomicity

A mutating operation that throws, or an update or delete that returns `false`, leaves the tables as
they were. Operations of one statement rely on that statement; the others rely on the transaction
around them: until the commit, what a rollback would restore is what was there at the start, and
nothing between the commit and the return can fail.
-/

namespace RecipesCore.Db

open RecipesCore.Logic RecipesCore.Logic.Program
open RecipesCore.Relational
open RecipesCore.Types
open DBManager

/-- Started on the tables `t`, the body ends on `t` when it throws or returns a `failed` value. -/
def Atomic {α : Type} (failed : α → Prop) (body : DbM α) : Prop :=
  ∀ t q, Triple (fun m => Store.Valid m.db.tables m.db.sequences ∧ m.db.tables = t ∧
      m.db.sequences = q) body
    (fun a m => failed a → m.db.tables = t) (fun _ m => m.db.tables = t)

section

variable {α β : Type} {failure : α → Prop} {t : Tables} {q : Sequences}

/-- A rollback would restore `t`. -/
abbrev Snapshot (t : Tables) (q : Sequences) :=
  With (fun _ _ => True) fun saved => saved = some (t, q)

theorem snapshot_kept : KeptByCalls {} (Snapshot t q) :=
  with_kept fun _ _ _ _ _ _ _ _ => trivial

/-- Inside a transaction it is enough to keep the snapshot on every way out that fails. -/
theorem transaction_atomic {block : DbM α}
    (h : ∀ t q, Triple (Snapshot t q) block
      (fun a m => failure a → Snapshot t q m) (fun _ => Snapshot t q)) :
    Atomic failure (transaction block) := by
  intro t q
  have hexit : ∀ m : DBManager, Snapshot t q m →
      (rollbackUnlessCommitted m).db.tables = t := by
    rintro m ⟨-, hsaved⟩
    simp only [rollbackUnlessCommitted, hsaved]
  refine Triple.bind (Q := fun _ m => Snapshot t q m) ?_ fun _ => ?_
  · refine (execDirect_triple (J := fun db _ => db.tables = t ∧ db.sequences = q)
      (K := StoredWith _ _) ?_).conseq ?_ (fun _ _ h => h) ?_
    · rintro m ⟨rfl, rfl⟩
      exact ⟨trivial, rfl⟩
    · rintro m ⟨-, ht, hq⟩
      exact ⟨ht, hq⟩
    · rintro _ m ⟨ht, -⟩
      exact ht
  · exact Triple.ensuring ((h t q).conseq (fun _ h => h) (fun _ m hm hf => hexit m (hm hf))
      (fun _ m hm => hexit m hm))

theorem commit_atomic {Q : Unit → DBManager → Prop} (h : ∀ m, Q () m) :
    Triple (Snapshot t q) commit Q (fun _ => Snapshot t q) :=
  (execDirect_triple (J := StoredWith _ fun saved => saved = some (t, q)) (K := fun _ _ => True)
    fun _ _ => trivial).conseq (fun _ h => h) (fun _ m _ => h m) (fun _ _ h => h)

/-- A block that does its work and commits at the end never fails after the commit. -/
theorem commitLast_atomic {block : DbM β} (h : ∀ t q, Keeps (Snapshot t q) block) :
    Atomic (fun _ => False) (transaction (do let _ ← block; commit)) :=
  transaction_atomic fun t q =>
    Triple.bind (h t q) fun _ => commit_atomic fun _ hf => hf.elim

/-! ## Operations of one statement -/

theorem execBound_atomic {w : Write} {values : List Sqlite.Value} :
    Triple (fun m => Store.Valid m.db.tables m.db.sequences ∧ m.db.tables = t ∧
        m.db.sequences = q) (execBound w values)
      (fun _ m => ∃ gap db, Store.Valid db.tables db.sequences ∧ db.tables = t ∧
        w.sql (params values) gap db = .ok m.db) (fun _ m => m.db.tables = t) := by
  refine (execBound_triple (J := fun db _ => Store.Valid db.tables db.sequences ∧
    db.tables = t ∧ db.sequences = q)).conseq (fun _ h => h) ?_ ?_
  · rintro _ m ⟨gap, db, ⟨hv, ht, -⟩, hsql⟩
    exact ⟨gap, db, hv, ht, hsql⟩
  · rintro _ m ⟨-, ht, -⟩
    exact ht

theorem insertProduct_atomic (product : Product) :
    Atomic (fun _ => False) (insertProduct product) := by
  intro t q
  rw [insertProduct_eq]
  exact execBound_atomic.conseq (fun _ h => h) (fun _ _ _ hf => hf.elim) (fun _ _ h => h)

theorem createProduct_atomic (product : Product) :
    Atomic (fun _ => False) (createProduct product) := by
  intro t q
  rw [createProduct_eq]
  refine Triple.bind execBound_atomic fun _ => ?_
  exact fun _ _ hf => hf.elim

/-- An update that changed no row, or more than one: the second cannot be. -/
theorem updateProduct_atomic (productId : Int) (product : Product) :
    Atomic (fun updated => updated = false) (updateProduct productId product) := by
  intro t q
  rw [updateProduct_eq]
  refine Triple.bind execBound_atomic fun _ => ?_
  rintro m ⟨gap, db, hv, rfl, hsql⟩
  show (m.db.changes == 1) = false → m.db.tables = db.tables
  intro hfalse
  rcases updateProduct_effect.mp hsql with ⟨-, hdb⟩ | ⟨⟨row, hrow, rfl⟩, -, -, hdb⟩
  · rw [hdb]
  · rw [hdb, countP_key_eq hv.productIds hrow] at hfalse
    simp at hfalse

theorem deleteProduct_atomic (productId : Int) :
    Atomic (fun deleted => deleted = false) (deleteProduct productId) := by
  intro t q
  rw [deleteProduct_eq]
  refine Triple.bind execBound_atomic fun _ => ?_
  rintro m ⟨gap, db, hv, rfl, hsql⟩
  show (m.db.changes == 1) = false → m.db.tables = db.tables
  intro hfalse
  have hdb := deleteProduct_effect.mp hsql
  by_cases hex : ∃ row ∈ db.tables.products, row.id = productId
  · obtain ⟨row, hrow, rfl⟩ := hex
    rw [hdb, countP_key_eq hv.productIds hrow] at hfalse
    simp at hfalse
  · rw [hdb, deleteWhere_of_none fun row hrow => decide_eq_false fun hid => hex ⟨row, hrow, hid⟩]

/-- Without the recipe there is nothing to delete, and nothing for the cascade either. -/
theorem deleteRecipe_atomic (recipeId : Int) :
    Atomic (fun deleted => deleted = false) (deleteRecipe recipeId) := by
  intro t q
  rw [deleteRecipe_eq]
  refine Triple.bind execBound_atomic fun _ => ?_
  rintro m ⟨gap, db, hv, rfl, hsql⟩
  show (m.db.changes == 1) = false → m.db.tables = db.tables
  intro hfalse
  have hdb := deleteRecipe_effect.mp hsql
  by_cases hex : ∃ row ∈ db.tables.recipes, row.id = recipeId
  · obtain ⟨row, hrow, rfl⟩ := hex
    rw [hdb, countP_key_eq hv.recipeIds hrow] at hfalse
    simp at hfalse
  · have hany : (db.tables.recipes.any fun recipe => decide (recipe.id = recipeId)) = false :=
      Bool.eq_false_iff.mpr fun h => hex (any_decide_iff.mp h)
    rw [hdb, deleteWhere_of_none fun row hrow => decide_eq_false fun hid => hex ⟨row, hrow, hid⟩,
      deleteWhere_of_none fun row _ => by rw [hany, Bool.and_false]]

/-! ## Operations in a transaction -/

theorem insertProducts_atomic (products : List Product) :
    Atomic (fun _ => False) (insertProducts products) :=
  commitLast_atomic fun _ _ =>
    Triple.forM fun _ _ => insertProduct_keeps snapshot_kept trivial

theorem insertRecipe_atomic (recipe : Recipe) :
    Atomic (fun _ => False) (insertRecipe recipe) := by
  rw [insertRecipe_eq]
  exact commitLast_atomic fun _ _ => insertRecipeBody_keeps snapshot_kept (Recipe.admitted_all recipe)

theorem insertRecipes_atomic (recipes : List Recipe) :
    Atomic (fun _ => False) (insertRecipes recipes) := by
  rw [insertRecipes_eq]
  exact commitLast_atomic fun _ _ =>
    Triple.forM fun recipe _ => insertRecipeBody_keeps snapshot_kept (Recipe.admitted_all recipe)

theorem createRecipe_atomic (recipe : Recipe) :
    Atomic (fun _ => False) (createRecipe recipe) := by
  rw [createRecipe_eq]
  refine transaction_atomic fun t q => ?_
  refine (snapshot_kept.exec (.createRecipe trivial)).bind fun _ => ?_
  refine getLastInsertRowid_keeps.bind fun recipeId => ?_
  refine (replaceRecipeIngredients_keeps snapshot_kept (Recipe.admitted_all recipe).2).bind fun _ => ?_
  exact Triple.bind (commit_atomic (Q := fun _ _ => True) fun _ => trivial) fun _ =>
    Triple.pure fun _ _ hf => hf.elim

/-- The early return comes before the commit, and after the commit `true` is returned. -/
theorem updateRecipe_atomic (recipeId : Int) (recipe : Recipe) :
    Atomic (fun updated => updated = false) (updateRecipe recipeId recipe) := by
  rw [updateRecipe_eq]
  refine transaction_atomic fun t q => ?_
  refine (snapshot_kept.exec (.updateRecipeNameById recipeId trivial)).bind fun _ => ?_
  refine getChanges_keeps.bind fun changes => ?_
  split
  · exact Triple.pure fun _ hm _ => hm
  · refine (replaceRecipeIngredients_keeps snapshot_kept (Recipe.admitted_all recipe).2).bind
      fun _ => ?_
    exact Triple.bind (commit_atomic (Q := fun _ _ => True) fun _ => trivial) fun _ =>
      Triple.pure fun _ _ hf => by simp at hf

/-! ## All mutating operations -/

/-- The call had no success to report: an update or delete that returned `false`. -/
def Returned.isFalse (r : Returned) : Prop := r = .bool false

theorem Atomic.map {f : α → Returned} (hf : ∀ a, (f a).isFalse → failure a) {body : DbM α}
    (h : Atomic failure body) : Atomic Returned.isFalse (f <$> body) := fun t q =>
  Triple.map ((h t q).conseq (fun _ h => h) (fun a _ ha hfa => ha (hf a hfa)) (fun _ _ h => h))

theorem Atomic.unit {body : DbM Unit} (h : Atomic (fun _ => False) body) :
    Atomic Returned.isFalse (do body; return .unit) := fun t q =>
  Triple.bind (h t q) fun _ => Triple.pure fun _ _ hf => by simp [Returned.isFalse] at hf

/-- **Every mutating operation is atomic.** -/
theorem Operation.run_atomic (op : Operation) (hop : op.mutates = true) :
    Atomic Returned.isFalse op.run := by
  cases op with
  | insertProduct product => exact (insertProduct_atomic product).unit
  | insertProducts products => exact (insertProducts_atomic products).unit
  | createProduct product => exact (createProduct_atomic product).map fun _ => by simp [Returned.isFalse]
  | updateProduct productId product =>
      exact (updateProduct_atomic productId product).map fun _ => by simp [Returned.isFalse]
  | deleteProduct productId =>
      exact (deleteProduct_atomic productId).map fun _ => by simp [Returned.isFalse]
  | insertRecipe recipe => exact (insertRecipe_atomic recipe).unit
  | insertRecipes recipes => exact (insertRecipes_atomic recipes).unit
  | createRecipe recipe => exact (createRecipe_atomic recipe).map fun _ => by simp [Returned.isFalse]
  | updateRecipe recipeId recipe =>
      exact (updateRecipe_atomic recipeId recipe).map fun _ => by simp [Returned.isFalse]
  | deleteRecipe recipeId =>
      exact (deleteRecipe_atomic recipeId).map fun _ => by simp [Returned.isFalse]
  | _ => simp [Operation.mutates] at hop

end

end RecipesCore.Db
