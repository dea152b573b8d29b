import RecipesCore.Db.Calm
import RecipesCore.Db.Readers

/-!
# Reading back what was written

A create is followed by the read of the new row, and an update over HTTP too. `Takes n` counts the
steps a writing part uses up when it returns, so that one can say what SQLite must not do to the
read behind it; the rest says that the row is there and what the read makes of it.
-/

namespace RecipesCore.Db

open RecipesCore.Logic RecipesCore.Logic.Program
open RecipesCore.Relational
open RecipesCore.Sqlite
open RecipesCore.Types
open DBManager

/-! ## Steps used up -/

theorem nextOutcome_drop {environment rest : List StepOutcome} {outcome : StepOutcome}
    (h : nextOutcome environment = (outcome, rest)) : rest = environment.drop 1 := by
  cases environment with
  | nil => cases h; rfl
  | cons _ _ => cases h; rfl

/-- A part that returns has taken `n` steps, and left no `SELECT` in another state. -/
def Takes {α : Type} (n : Nat) (body : DbM α) : Prop :=
  ∀ m a m', runOn body m = (.ok a, m') → m'.environment = m.environment.drop n ∧
    ∀ r, m'.failureOf (.read r) = m.failureOf (.read r)

namespace Takes

variable {α β : Type} {n k : Nat} {body : DbM α}

theorem pure {a : α} : Takes 0 (Pure.pure a : DbM α) := by
  intro m b m' h
  cases h
  exact ⟨rfl, fun _ => rfl⟩

/-- Parts in a row use up their steps one after the other. -/
theorem bind {f : α → DbM β} (h : Takes n body) (hf : ∀ a, Takes k (f a)) :
    Takes (n + k) (body >>= f) := by
  intro m b m' hrun
  obtain ⟨a, m₁, hbody, hrest⟩ := runOn_bind_eq_ok hrun
  obtain ⟨henv, hreads⟩ := h m a m₁ hbody
  obtain ⟨henv', hreads'⟩ := hf a m₁ b m' hrest
  exact ⟨by rw [henv', henv, List.drop_drop], fun r => (hreads' r).trans (hreads r)⟩

/-- A loop uses up as many steps in every round. -/
theorem forM {xs : List α} {loop : α → DbM PUnit} (h : ∀ a, Takes n (loop a)) :
    Takes (xs.length * n) (xs.forM loop) := by
  induction xs with
  | nil =>
      rw [List.length_nil, Nat.zero_mul]
      exact Takes.pure
  | cons a xs ih =>
      rw [List.forM_eq_forM, List.forM_cons, List.length_cons, Nat.succ_mul, Nat.add_comm]
      exact (h a).bind fun _ => ih

theorem execBound {w : Write} {values : List Value} : Takes 1 (execBound w values) := by
  intro m a m' hrun
  obtain ⟨⟨⟩, m₁, hprepare, hexec⟩ := runOn_bind_eq_ok hrun
  have hreads : ∀ r, m₁.failureOf (.read r) = m.failureOf (.read r) ∧
      m₁.environment = m.environment := by
    intro r
    rw [runOn_prepare] at hprepare
    split at hprepare
    · cases hprepare
    · cases hprepare
      rw [prepared, failureOf_setStatement, if_neg (by simp)]
      exact ⟨rfl, rfl⟩
  rcases nextOutcome_cases m₁.environment with ⟨gap, rest, h⟩ | ⟨exception, rest, h⟩
  · rw [exec, runOn_bind_ok (runOn_step h), runOn_primitive] at hexec
    split at hexec
    · cases hexec
      have henv := (hreads .selectAllProducts).2
      exact ⟨by rw [← henv, ← nextOutcome_drop h], fun r => (hreads r).1⟩
    · cases hexec
  · rw [exec, runOn_bind_error (runOn_step_fail h)] at hexec
    cases hexec

theorem execDirect {f : DBManager → DBManager}
    (hf : ∀ m, (f m).environment = m.environment ∧ (f m).statements = m.statements) :
    Takes 1 (execDirect f) := by
  intro m a m' hrun
  rcases nextOutcome_cases m.environment with ⟨gap, rest, h⟩ | ⟨exception, rest, h⟩
  · simp only [Db.execDirect, runOn_primitive, h, Prod.mk.injEq, true_and] at hrun
    obtain rfl := hrun
    obtain ⟨henv, hstatements⟩ := hf { m with environment := rest }
    refine ⟨by rw [henv]; exact nextOutcome_drop h, fun r => ?_⟩
    rw [failureOf, hstatements]
    rfl
  · simp [Db.execDirect, h] at hrun

theorem commit : Takes 1 commit := execDirect fun _ => ⟨rfl, rfl⟩

/-- `BEGIN` is one step; a rollback is none. -/
theorem transaction (h : Takes n body) : Takes (1 + n) (transaction body) := by
  refine Takes.bind (execDirect fun _ => ⟨rfl, rfl⟩) fun _ => ?_
  intro m a m' hrun
  rw [runOn_ensuring] at hrun
  obtain ⟨hresult, rfl⟩ := Prod.mk.inj hrun
  obtain ⟨henv, hreads⟩ := h m a _ (Prod.ext hresult rfl)
  unfold rollbackUnlessCommitted
  split
  · exact ⟨henv, hreads⟩
  · exact ⟨henv, hreads⟩

end Takes

theorem createProduct_takes (product : Product) : Takes 1 (createProduct product) := by
  rw [createProduct_eq]
  refine Takes.bind (k := 0) Takes.execBound fun _ => ?_
  rintro m a m' h
  cases h
  exact ⟨rfl, fun _ => rfl⟩

/-- A create of a recipe takes `BEGIN`, the recipe, the delete, each ingredient and `COMMIT`. -/
theorem createRecipe_takes (recipe : Recipe) :
    Takes (4 + recipe.ingredients.length) (createRecipe recipe) := by
  have hinsert : ∀ recipeId ingredient, Takes 1 (insertIngredient recipeId ingredient) := by
    intro recipeId ingredient
    rw [insertIngredient_eq]
    exact Takes.execBound
  have hreplace : ∀ recipeId,
      Takes (1 + recipe.ingredients.length * 1) (replaceRecipeIngredients recipeId recipe) := by
    intro recipeId
    rw [replaceRecipeIngredients_eq]
    exact Takes.execBound.bind fun _ => Takes.forM (hinsert recipeId)
  have hlast : Takes 0 getLastInsertRowid := by
    rintro m a m' h
    cases h
    exact ⟨rfl, fun _ => rfl⟩
  have hinsertRow : Takes 1 (execBound .createRecipe [.text recipe.name]) := Takes.execBound
  have h := Takes.transaction (hinsertRow.bind fun _ => hlast.bind fun recipeId =>
    (hreplace recipeId).bind fun _ => Takes.commit.bind fun _ => Takes.pure (a := recipeId))
  rw [createRecipe_eq]
  convert h using 1
  omega

/-! ## The new row -/

/-- What a created product leaves: its row behind the others, under the id that is returned. -/
theorem createProduct_stored {product : Product} {m m' : DBManager} {productId : Int}
    (h : runOn (createProduct product) m = (.ok productId, m')) :
    m'.db.tables = { m.db.tables with
        products := m.db.tables.products ++ [productRow productId product] } ∧
      m.db.sequences.products < productId ∧ productId < 2 ^ 63 := by
  rw [createProduct_eq] at h
  obtain ⟨⟨⟩, m₁, hexec, hlast⟩ := runOn_bind_eq_ok h
  obtain ⟨gap, db, hdb, hsql⟩ := (execBound_triple (J := fun db _ => db = m.db)).of_ok rfl hexec
  obtain rfl : db = m.db := hdb
  obtain ⟨id, hid, -, -, hdb⟩ := createProduct_effect.mp hsql
  simp only [getLastInsertRowid, runOn_primitive, hdb, Prod.mk.injEq, Except.ok.injEq] at hlast
  obtain ⟨rfl, rfl⟩ := hlast
  exact ⟨by rw [hdb], nextId_gt hid, (nextId_eq_ok.mp hid).2⟩

/-- What an updated product leaves, where its id is stored. -/
theorem updateProduct_stored {product : Product} {m m' : DBManager} {productId : Int}
    (h : runOn (updateProduct productId product) m = (.ok true, m')) :
    (∃ row ∈ m.db.tables.products, row.id = productId) ∧
      m'.db.tables = { m.db.tables with
        products := updateWhere (fun row => decide (row.id = productId))
          (fun row => productRow row.id product) m.db.tables.products } := by
  rw [updateProduct_eq] at h
  obtain ⟨⟨⟩, m₁, hexec, hchanges⟩ := runOn_bind_eq_ok h
  obtain ⟨gap, db, hdb, hsql⟩ := (execBound_triple (J := fun db _ => db = m.db)).of_ok rfl hexec
  obtain rfl : db = m.db := hdb
  have hrun : (m₁.db.changes == 1) = true ∧ m₁ = m' := by
    obtain ⟨n, m₂, hget, hpure⟩ := runOn_bind_eq_ok hchanges
    simp only [getChanges, runOn_primitive, Prod.mk.injEq, Except.ok.injEq] at hget
    obtain ⟨rfl, rfl⟩ := hget
    simpa using hpure
  obtain ⟨hone, rfl⟩ := hrun
  rcases updateProduct_effect.mp hsql with ⟨-, hdb⟩ | ⟨hex, -, -, hdb⟩
  · simp [hdb] at hone
  · exact ⟨hex, by rw [hdb]⟩

/-- `recipeId` is stored. -/
def HasRecipe (recipeId : Int) (tables : Tables) : Prop := ∃ row ∈ tables.recipes, row.id = recipeId

instance (recipeId : Int) (tables : Tables) : Decidable (HasRecipe recipeId tables) :=
  List.decidableBEx _ _

/-- What a block commits is there after the transaction; a result that promises nothing about the
tables needs no commit. -/
theorem transaction_commits_from {α : Type} {block : DbM α} {P : Database → Prop}
    {Q : α → Tables → Prop} (h : Triple (fun m => P m.db) block
      (fun a m => (Q a m.db.tables ∧ m.saved = none) ∨ ∀ tables, Q a tables) (fun _ _ => True)) :
    Triple (fun m => P m.db) (transaction block) (fun a m => Q a m.db.tables)
      (fun _ _ => True) := by
  refine Triple.bind (Q := fun _ m => P m.db) ?_ fun _ => Triple.ensuring (h.conseq
    (fun _ h => h) ?_ (fun _ _ h => h))
  · exact (execDirect_triple (J := fun db _ => P db) (K := fun db _ => P db)
      (f := fun m => { m with saved := some (m.db.tables, m.db.sequences) }) fun _ h => h).conseq
      (fun _ h => h) (fun _ _ h => h) (fun _ _ _ => trivial)
  · rintro a m (⟨hm, hsaved⟩ | hall)
    · simpa only [rollbackUnlessCommitted, hsaved] using hm
    · exact hall _

/-- What holds of the tables when a transaction commits holds after it. -/
theorem transaction_commits {α : Type} {block : DbM α} {Q : α → Tables → Prop}
    (h : Triple (fun _ => True) block
      (fun a m => (Q a m.db.tables ∧ m.saved = none) ∨ ∀ tables, Q a tables) (fun _ _ => True)) :
    Triple (fun _ => True) (transaction block) (fun a m => Q a m.db.tables) (fun _ _ => True) :=
  transaction_commits_from (P := fun _ => True) h

/-- A commit leaves the tables as they are. -/
theorem commit_tables {Q : Tables → Prop} :
    Triple (fun m => Q m.db.tables) commit (fun _ m => Q m.db.tables ∧ m.saved = none)
      (fun _ _ => True) :=
  (execDirect_triple (J := fun db _ => Q db.tables)
    (K := fun db saved => Q db.tables ∧ saved = none)
    (f := fun m => { m with saved := none }) fun _ hm => ⟨hm, rfl⟩).conseq (fun _ h => h)
    (fun _ _ h => h) (fun _ _ _ => trivial)

/-! ## The read -/

/-- The product a reader finds under an id. -/
def findProduct (tables : Tables) (productId : Int) : Option Product :=
  ((tables.products.filter fun row => decide (row.id = productId)).head?).map
    fun row => readProduct row.columns

/-- The `SELECT` by id finds the product. -/
theorem selectProductById_rows (tables : Tables) (productId : Int) :
    (Read.selectProductById.sql (params [.integer productId]) tables).head?.map readProduct =
      findProduct tables productId := by
  have hp1 : params [.integer productId] 1 = .integer productId := rfl
  simp only [Read.sql, PreparedStatements.kSelectProductById, hp1, Value.eq_integer, findProduct,
    List.head?_map, Option.map_map]
  rfl

/-- A product that is read is what the tables hold, and nothing is changed. -/
theorem getProduct_exact {m m' : DBManager} {productId : Int} {product : Option Product}
    (h : runOn (getProduct productId) m = (.ok product, m')) :
    product = findProduct m.db.tables productId ∧ m'.db = m.db := by
  rw [getProduct_eq] at h
  obtain ⟨row, m₁, hrow, hpure⟩ := runOn_bind_eq_ok h
  obtain ⟨hdb, hrow⟩ := (firstBound_triple (J := fun db _ => db = m.db)).of_ok rfl hrow
  simp only [runOn_pure, Prod.mk.injEq, Except.ok.injEq] at hpure
  obtain ⟨rfl, rfl⟩ := hpure
  rw [hrow, hdb]
  exact ⟨selectProductById_rows _ _, rfl⟩

section

variable {tables : Tables} {productId : Int} {product : Product}

/-- A row that was written is read as the product, as long as it has no dates. -/
theorem readProduct_productRow (hdates : product.dates = {}) :
    readProduct (productRow productId product).columns = { product with id := some productId } := by
  have hdimension : Dimension.ofCode (Value.integer product.dimension.code).getInt.toInt =
      product.dimension := Dimension.ofCode_stored _
  simp [readProduct, productRow, ProductRow.columns, getColumn, readDate, hdates, hdimension]

/-- A product appended under a new id is found. -/
theorem findProduct_append (hnew : ∀ row ∈ tables.products, row.id ≠ productId) :
    findProduct { tables with products := tables.products ++ [productRow productId product] }
      productId = some (readProduct (productRow productId product).columns) := by
  have hfilter : (tables.products.filter fun row => decide (row.id = productId)) = [] :=
    List.filter_eq_nil_iff.mpr fun row hrow => by simp [hnew row hrow]
  rw [findProduct, List.filter_append, hfilter]
  simp

/-- An updated product is found as it is written. -/
theorem findProduct_update (h : ∃ row ∈ tables.products, row.id = productId) :
    findProduct { tables with
        products := updateWhere (fun row => decide (row.id = productId))
          (fun row => productRow row.id product) tables.products } productId =
      some (readProduct (productRow productId product).columns) := by
  obtain ⟨row, hrow, hid⟩ := h
  have hmem : productRow productId product ∈ ((updateWhere (fun row => decide (row.id = productId))
      (fun row => productRow row.id product) tables.products).filter
        fun row => decide (row.id = productId)) :=
    List.mem_filter.mpr ⟨mem_updateWhere.mpr (Or.inr ⟨row, hrow, by simp [hid], by rw [hid]⟩),
      by simp⟩
  unfold findProduct
  cases hfilter : ((updateWhere (fun row => decide (row.id = productId))
      (fun row => productRow row.id product) tables.products).filter
        fun row => decide (row.id = productId)) with
  | nil => simp [hfilter] at hmem
  | cons first rest =>
      -- every row with this id was written by the update
      have hfirst : first ∈ _ := hfilter ▸ List.mem_cons_self
      obtain ⟨hupdated, hfirstId⟩ := List.mem_filter.mp hfirst
      rcases mem_updateWhere.mp hupdated with ⟨-, hne⟩ | ⟨other, -, hother, rfl⟩
      · rw [hfirstId] at hne
        cases hne
      · rw [of_decide_eq_true hother]
        simp

end

section

variable {m : DBManager} {r : Read} {values : List Value}

/-- A `SELECT` that was not left failed can be prepared. -/
theorem runOn_prepare_read (hflag : m.failureOf (.read r) = none) :
    runOn (prepare (.read r) values) m = (.ok (), m.prepared (.read r) values) := by
  rw [runOn_prepare, hflag]

/-- Undisturbed, the next step goes on, and so do those behind it. -/
theorem Undisturbed.next {environment : List StepOutcome} (h : Undisturbed environment) :
    ∃ gap rest, nextOutcome environment = (.proceed gap, rest) ∧ Undisturbed rest := by
  cases environment with
  | nil => exact ⟨0, [], rfl, h⟩
  | cons outcome rest =>
      obtain ⟨gap, rfl⟩ := h outcome (by simp)
      exact ⟨gap, rest, rfl, fun o ho => h o (List.mem_cons_of_mem _ ho)⟩

/-- Undisturbed, all rows are visited. -/
theorem stepThrough_returns {β : Type} (visit : β → Row → β) :
    ∀ (rows : List Row) (acc : β) (m : DBManager), Undisturbed m.environment →
      ∃ m', runOn (stepThrough r visit acc rows) m = (.ok (rows.foldl visit acc), m')
  | [], acc, m, h => by
      obtain ⟨gap, rest, hnext, -⟩ := h.next
      exact ⟨_, by rw [stepThrough, runOn_bind_ok (runOn_step hnext), runOn_pure]; rfl⟩
  | row :: rows, acc, m, h => by
      obtain ⟨gap, rest, hnext, hrest⟩ := h.next
      obtain ⟨m', hm'⟩ := stepThrough_returns visit rows (visit acc row)
        { m with environment := rest } hrest
      exact ⟨m', by rw [stepThrough, runOn_bind_ok (runOn_step hnext), hm']; rfl⟩

/-- A `SELECT` that was not left failed returns when SQLite goes on. -/
theorem queryBound_returns {β : Type} {visit : β → Row → β} {start : β}
    (hflag : m.failureOf (.read r) = none) (h : Undisturbed m.environment) :
    ∃ m', runOn (queryBound r values visit start) m =
      (.ok ((r.sql (params values) m.db.tables).foldl visit start), m') := by
  obtain ⟨m', hm'⟩ := stepThrough_returns (r := r) visit (r.sql (params values) m.db.tables) start
    (m.prepared (.read r) values) h
  refine ⟨m', ?_⟩
  rw [queryBound, runOn_bind_ok (runOn_prepare_read hflag), whileExecuteStep]
  have hrows : runOn (resultRows r) (m.prepared (.read r) values) =
      (.ok (r.sql (params values) m.db.tables), m.prepared (.read r) values) := by
    simp [resultRows, prepared]
  rw [runOn_bind_ok hrows, hm']

theorem firstBound_returns (hflag : m.failureOf (.read r) = none) {gap : Nat}
    {rest : List StepOutcome} (hnext : nextOutcome m.environment = (.proceed gap, rest)) :
    ∃ m', runOn (firstBound r values) m =
      (.ok (r.sql (params values) m.db.tables).head?, m') := by
  have hstep : runOn (step (.read r)) (m.prepared (.read r) values) =
      (.ok gap, { m.prepared (.read r) values with environment := rest }) := runOn_step hnext
  have hrows : ∀ m' : DBManager, runOn (resultRows r) m' =
      (.ok (r.sql (m'.statements (.read r)).bindings m'.db.tables), m') := fun _ => rfl
  refine ⟨{ m.prepared (.read r) values with environment := rest }, ?_⟩
  rw [firstBound, runOn_bind_ok (runOn_prepare_read hflag), executeStep, runOn_bind_ok hstep,
    runOn_bind_ok (hrows _), runOn_pure]
  simp [prepared]

/-- Undisturbed, the read behind a create returns what is stored. -/
theorem getProduct_returns {productId : Int}
    (hflag : m.failureOf (.read .selectProductById) = none) (h : Undisturbed m.environment) :
    ∃ m', runOn (getProduct productId) m = (.ok (findProduct m.db.tables productId), m') := by
  obtain ⟨gap, rest, hnext, -⟩ := h.next
  obtain ⟨m', hm'⟩ : ∃ m', runOn (firstBound .selectProductById [.integer productId]) m = _ :=
    firstBound_returns hflag hnext
  refine ⟨m', ?_⟩
  rw [getProduct_eq, runOn_bind_ok hm', runOn_pure, selectProductById_rows]

/-- The read of a product returns when its `SELECT` was not left failed and SQLite goes on in its
only step. -/
theorem getProduct_returns_iff (productId : Int) :
    (∃ found m', runOn (getProduct productId) m = (.ok found, m')) ↔
      m.failureOf (.read .selectProductById) = none ∧
        ∃ gap, (nextOutcome m.environment).1 = .proceed gap := by
  rw [getProduct_eq]
  constructor
  · rintro ⟨found, m', hrun⟩
    obtain ⟨row, m₁, hfirst, -⟩ := runOn_bind_eq_ok hrun
    cases hflag : m.failureOf (.read .selectProductById) with
    | some exception =>
        rw [firstBound, runOn_bind_error (by rw [runOn_prepare, hflag])] at hfirst
        cases hfirst
    | none =>
        refine ⟨rfl, ?_⟩
        rw [firstBound, runOn_bind_ok (runOn_prepare_read hflag), executeStep] at hfirst
        rcases nextOutcome_cases m.environment with ⟨gap, rest, hnext⟩ | ⟨exception, rest, hnext⟩
        · exact ⟨gap, by rw [hnext]⟩
        · have hstep := runOn_step_fail (m := m.prepared (.read .selectProductById)
            [.integer productId]) (s := .read .selectProductById) hnext
          rw [runOn_bind_error hstep] at hfirst
          cases hfirst
  · rintro ⟨hflag, gap, hgap⟩
    obtain ⟨m', hm'⟩ : ∃ m', runOn (firstBound .selectProductById [.integer productId]) m = _ :=
      firstBound_returns hflag (Prod.ext hgap rfl)
    exact ⟨_, m', by rw [runOn_bind_ok hm', runOn_pure]⟩

/-- So does the read of a recipe. -/
theorem getRecipe_returns {recipeId : Int} (hv : Store.Valid m.db.tables m.db.sequences)
    (hflag : m.failureOf (.read .selectRecipeByIdWithIngredients) = none)
    (h : Undisturbed m.environment) :
    ∃ m', runOn (getRecipe recipeId) m =
      (.ok (findRecipe (storedRecipes m.db.tables) recipeId), m') := by
  obtain ⟨m', hm'⟩ : ∃ m', runOn (queryBound .selectRecipeByIdWithIngredients
      [.integer recipeId] fetchRow {}) m = _ := queryBound_returns hflag h
  refine ⟨m', ?_⟩
  rw [getRecipe_eq, runOn_bind_ok hm', runOn_pure, ← selectRecipeById_fetch hv]
  rfl

end

end RecipesCore.Db
