import RecipesCore.App.DatabaseExecutor
import RecipesCore.Db.RecipeWrites

/-!
# What a submission does

For one submission of a service operation: reads change nothing, a write that ends in an error has
changed nothing, and a create ends in an error after its write only when the read behind it fails.
-/

namespace RecipesCore.App

open RecipesCore.Db RecipesCore.Db.DBManager
open RecipesCore.Logic RecipesCore.Logic.Program
open RecipesCore.Types

section

variable {α : Type} {m : DBManager} {body : DbM (Expected α)}

/-- `try { … } catch`: an exception becomes a storage error. -/
theorem runOn_guarded : runOn (guarded body) m =
    match runOn body m with
    | (.ok result, m') => (.ok result, m')
    | (.error exception, m') => (.ok (.error (storageError exception)), m') := by
  rw [guarded, runOn_tryCatch]
  rcases runOn body m with ⟨e | result, m'⟩ <;> rfl

theorem runOn_guarded_map {query : DbM α} {a : α} {m' : DBManager}
    (h : runOn query m = (.ok a, m')) : runOn (guarded (.ok <$> query)) m = (.ok (.ok a), m') := by
  rw [runOn_guarded, map_eq_pure_bind, runOn_bind_ok h]
  rfl

theorem runOn_guarded_eq_ok {a : α} {m' : DBManager}
    (h : runOn (guarded body) m = (.ok (.ok a), m')) : runOn body m = (.ok (.ok a), m') := by
  rw [runOn_guarded] at h
  rcases hbody : runOn body m with ⟨e | result, m₁⟩
  · simp [hbody] at h
  · simpa [hbody] using h

theorem runOn_guarded_map_eq_ok {query : DbM α} {a : α} {m' : DBManager}
    (h : runOn (guarded (.ok <$> query)) m = (.ok (.ok a), m')) : runOn query m = (.ok a, m') := by
  obtain ⟨b, hquery, hb⟩ := runOn_map_eq_ok (runOn_guarded_eq_ok h)
  rwa [Except.ok.inj hb] at hquery

end

/-! ## Reads -/

/-- The operations that only read. -/
def ServiceOperation.onlyReads : ServiceOperation → Bool
  | .getProduct _ | .getProducts | .getRecipe _ | .getRecipes | .getCookableRecipes => true
  | _ => false

/-- The operations that insert a row and read it back. -/
def ServiceOperation.creates : ServiceOperation → Bool
  | .createProduct _ | .createRecipe _ => true
  | _ => false

theorem ServiceOperation.read_keeps {P : DBManager → Prop} (hP : KeptByReads P)
    {op : ServiceOperation} (h : op.onlyReads = true) : KeepsCaught P op.run := by
  cases op with
  | getProduct productId => exact guarded_map_keeps (getProduct_keeps hP)
  | getProducts => exact guarded_map_keeps (getAllProducts_keeps hP)
  | getRecipe recipeId => exact guarded_map_keeps (getRecipe_keeps hP)
  | getRecipes => exact guarded_map_keeps (fetchRecipes_keeps hP)
  | getCookableRecipes => exact guarded_map_keeps (fetchRecipes_keeps hP)
  | _ => cases h

theorem db_keptByReads (db : Database) : KeptByReads fun m => m.db = db :=
  keptByReads_of (fun _ _ _ h => h) fun _ _ h => h

section

variable {op : ServiceOperation} {environment : List StepOutcome} {m : DBManager}

theorem call_read_db (h : op.onlyReads = true) : (op.call environment m).2.db = m.db :=
  ServiceOperation.call_triple (op.read_keeps (db_keptByReads m.db) h) rfl

/-! ## The read at the end of a request -/

/-- The read that the operation ends with succeeds: the `SELECT` was not left failed, SQLite goes on
in the steps the read takes, and what is looked for is there. -/
def ServiceOperation.readsBack :
    ServiceOperation → List StepOutcome → DBManager → Prop
  | .createProduct _, environment, m =>
      m.failureOf (.read .selectProductById) = none ∧ Undisturbed (environment.drop 1)
  | .createRecipe recipe, environment, m =>
      m.failureOf (.read .selectRecipeByIdWithIngredients) = none ∧
        Undisturbed (environment.drop (4 + recipe.ingredients.length))
  | .getProduct productId, environment, m =>
      m.failureOf (.read .selectProductById) = none ∧ Undisturbed environment ∧
        ∃ row ∈ m.db.tables.products, row.id = productId
  | .getRecipe recipeId, environment, m =>
      m.failureOf (.read .selectRecipeByIdWithIngredients) = none ∧ Undisturbed environment ∧
        HasRecipe recipeId m.db.tables
  | _, _, _ => True

instance (op : ServiceOperation) (environment : List StepOutcome) (m : DBManager) :
    Decidable (op.readsBack environment m) :=
  match op with
  | .createProduct _ | .createRecipe _ => inferInstanceAs (Decidable (_ ∧ _))
  | .getProduct _ | .getRecipe _ => inferInstanceAs (Decidable (_ ∧ _ ∧ _))
  | .getProducts | .getRecipes | .getCookableRecipes | .updateProduct _ _ | .updateRecipe _ _
  | .deleteProduct _ | .deleteRecipe _ => isTrue trivial

theorem findProduct_ne_none {tables : Tables} {productId : Int}
    (h : ∃ row ∈ tables.products, row.id = productId) :
    ∃ product, findProduct tables productId = some product := by
  obtain ⟨row, hrow, hid⟩ := h
  have hmem : row ∈ tables.products.filter fun row => decide (row.id = productId) :=
    List.mem_filter.mpr ⟨hrow, decide_eq_true hid⟩
  cases hfilter : tables.products.filter fun row => decide (row.id = productId) with
  | nil => simp [hfilter] at hmem
  | cons first rest => exact ⟨readProduct first.columns, by simp [findProduct, hfilter]⟩

theorem findRecipe_ne_none {recipeId : Int} (hv : Store.Valid m.db.tables m.db.sequences)
    (h : HasRecipe recipeId m.db.tables) :
    ∃ recipe, findRecipe (storedRecipes m.db.tables) recipeId = some recipe := by
  obtain ⟨row, hrow, rfl⟩ := h
  exact ⟨_, findRecipe_stored hv hrow⟩

theorem call_getProduct {productId : Int}
    (hflag : m.failureOf (.read .selectProductById) = none) (h : Undisturbed environment) :
    ((ServiceOperation.getProduct productId).call environment m).1 =
      .ok (findProduct m.db.tables productId) := by
  obtain ⟨m', hm'⟩ : ∃ m', runOn (getProduct productId) (m.withEnvironment environment) =
      (.ok (findProduct m.db.tables productId), m') := getProduct_returns hflag h
  have hrun : runOn (ServiceOperation.getProduct productId).run (m.withEnvironment environment) =
      (.ok (.ok _), m') := runOn_guarded_map hm'
  rw [ServiceOperation.call_of_runOn hrun]

theorem call_getRecipe {recipeId : Int} (hv : Store.Valid m.db.tables m.db.sequences)
    (hflag : m.failureOf (.read .selectRecipeByIdWithIngredients) = none)
    (h : Undisturbed environment) :
    ((ServiceOperation.getRecipe recipeId).call environment m).1 =
      .ok (findRecipe (storedRecipes m.db.tables) recipeId) := by
  obtain ⟨m', hm'⟩ : ∃ m', runOn (getRecipe recipeId) (m.withEnvironment environment) =
      (.ok (findRecipe (storedRecipes m.db.tables) recipeId), m') := getRecipe_returns hv hflag h
  have hrun : runOn (ServiceOperation.getRecipe recipeId).run (m.withEnvironment environment) =
      (.ok (.ok _), m') := runOn_guarded_map hm'
  rw [ServiceOperation.call_of_runOn hrun]

/-! ## Writes that end in an error -/

/-- The body ends on the tables `t` when its result is an error. -/
abbrev Spares {α : Type} (t : Tables) (q : Sequences) (body : DbM (Expected α)) : Prop :=
  Triple (fun m => Store.Valid m.db.tables m.db.sequences ∧ m.db.tables = t ∧ m.db.sequences = q)
    body (fun result m => (∃ error, result = .error error) → m.db.tables = t) (fun _ _ => False)

variable {t : Tables} {q : Sequences}

theorem spares_error {α : Type} {error : Error} :
    Spares t q (return .error error : DbM (Expected α)) :=
  Triple.pure fun _ hm _ => hm.2.1

/-- An update or delete: not found is an error too, and has changed nothing either. -/
theorem spares_requireFound {message : String} {body : DbM Bool}
    (h : Atomic (fun done => done = false) body) :
    Spares t q (do return RecipeService.requireFound message (← guarded (.ok <$> body))) := by
  refine Triple.bind (Q := fun result m =>
    (∃ error, RecipeService.requireFound message result = .error error) → m.db.tables = t)
    ?_ fun result => Triple.pure fun _ hm => hm
  refine Triple.tryCatch (F := fun _ m => m.db.tables = t) ?_ fun _ => Triple.pure fun _ hm _ => hm
  refine Triple.map ((h t q).conseq (fun _ h => h) (fun done m hm herror => ?_) (fun _ _ h => h))
  cases done with
  | false => exact hm rfl
  | true => simp [RecipeService.requireFound] at herror

/-- A create and the read of what it made. -/
def createThenGet {α β : Type} (create : DbM β) (get : β → DbM (Option α)) (message : String) :
    DbM (Expected α) := guarded do
  let id ← create
  match ← get id with
  | none => return .error ⟨.storage, message⟩
  | some a => return .ok a

theorem createProduct_eq_createThenGet (product : Product) :
    sqliteRecipeRepository.createProduct product =
      createThenGet (createProduct product) getProduct "Created product was not found" :=
  congrArg guarded (bind_congr fun _ => bind_congr fun found => by cases found <;> rfl)

theorem createRecipe_eq_createThenGet (recipe : Recipe) :
    sqliteRecipeRepository.createRecipe recipe =
      createThenGet (createRecipe recipe) getRecipe "Created recipe was not found" :=
  congrArg guarded (bind_congr fun _ => bind_congr fun found => by cases found <;> rfl)

/-- A create that returns a value has read it back. -/
theorem createThenGet_eq_ok {α β : Type} {create : DbM β} {get : β → DbM (Option α)}
    {message : String} {a : α} {m' : DBManager}
    (h : runOn (createThenGet create get message) m = (.ok (.ok a), m')) :
    ∃ id m₁, runOn create m = (.ok id, m₁) ∧ runOn (get id) m₁ = (.ok (some a), m') := by
  obtain ⟨id, m₁, hcreate, hrest⟩ := runOn_bind_eq_ok (runOn_guarded_eq_ok h)
  obtain ⟨found, m₂, hget, hreturn⟩ := runOn_bind_eq_ok hrest
  cases found with
  | none => simp at hreturn
  | some found =>
      simp only [runOn_pure, Prod.mk.injEq, Except.ok.injEq] at hreturn
      obtain ⟨rfl, rfl⟩ := hreturn
      exact ⟨id, m₁, hcreate, hget⟩

theorem createThenGet_error {α β : Type} {create : DbM β} {get : β → DbM (Option α)}
    {message : String} {error : Error} {m' : DBManager} (hcreate : Atomic (fun _ => False) create)
    (hv : Store.Valid m.db.tables m.db.sequences)
    (hback : ∀ id m₁, runOn create m = (.ok id, m₁) → ∃ a m₂, runOn (get id) m₁ = (.ok (some a), m₂))
    (h : runOn (createThenGet create get message) m = (.ok (.error error), m')) :
    m'.db.tables = m.db.tables := by
  rw [createThenGet, runOn_guarded] at h
  rcases hrun : runOn create m with ⟨e | id, m₁⟩
  · rw [runOn_bind_error hrun] at h
    cases h
    exact (hcreate m.db.tables m.db.sequences).of_error ⟨hv, rfl, rfl⟩ hrun
  · obtain ⟨a, m₂, hget⟩ := hback id m₁ hrun
    rw [runOn_bind_ok hrun, runOn_bind_ok hget] at h
    simp at h

theorem createProduct_error {product : Product} {error : Error}
    (hv : Store.Valid m.db.tables m.db.sequences)
    (hback : (ServiceOperation.createProduct product).readsBack environment m) {m' : DBManager}
    (h : runOn (sqliteRecipeRepository.createProduct product) (m.withEnvironment environment) =
      (.ok (.error error), m')) : m'.db.tables = m.db.tables := by
  rw [createProduct_eq_createThenGet] at h
  refine createThenGet_error (m := m.withEnvironment environment) (createProduct_atomic product) hv
    ?_ h
  intro productId m₁ hrun
  obtain ⟨henv, hreads⟩ := createProduct_takes product _ _ _ hrun
  have hstored := (createProduct_stored hrun).1
  have hrow : ∃ row ∈ m₁.db.tables.products, row.id = productId :=
    ⟨productRow productId product, by simp [hstored], rfl⟩
  obtain ⟨created, hcreated⟩ := findProduct_ne_none hrow
  obtain ⟨m₂, hget⟩ : ∃ m₂, runOn (getProduct productId) m₁ = _ :=
    getProduct_returns ((hreads .selectProductById).trans hback.1) (henv ▸ hback.2)
  exact ⟨created, m₂, by rw [hget, hcreated]⟩

theorem createRecipe_error {recipe : Recipe} {error : Error} (hrest : Rests Store.Valid m)
    (hback : (ServiceOperation.createRecipe recipe).readsBack environment m) {m' : DBManager}
    (h : runOn (sqliteRecipeRepository.createRecipe recipe) (m.withEnvironment environment) =
      (.ok (.error error), m')) : m'.db.tables = m.db.tables := by
  rw [createRecipe_eq_createThenGet] at h
  refine createThenGet_error (m := m.withEnvironment environment) (createRecipe_atomic recipe)
    hrest.1 ?_ h
  intro recipeId m₁ hrun
  obtain ⟨henv, hreads⟩ := createRecipe_takes recipe _ _ _ hrun
  have hstored := (createRecipe_written.of_ok trivial hrun).hasRecipe
  have hv₁ : Store.Valid m₁.db.tables m₁.db.sequences :=
    ((createRecipe_keeps (rests_kept (Store.closed_valid {}))
      (Recipe.admitted_all recipe)).of_ok (s := m.withEnvironment environment) hrest hrun).1
  obtain ⟨created, hcreated⟩ := findRecipe_ne_none hv₁ hstored
  obtain ⟨m₂, hget⟩ : ∃ m₂, runOn (getRecipe recipeId) m₁ = _ := getRecipe_returns hv₁
    ((hreads .selectRecipeByIdWithIngredients).trans hback.1) (henv ▸ hback.2)
  exact ⟨created, m₂, by rw [hget, hcreated]⟩

/-- **A submission that ends in an error has changed no table**, provided that the read at the end
of a create succeeds. -/
theorem call_error_unchanged {error : Error} (hrest : Rests Store.Valid m)
    (hback : op.creates = true → op.readsBack environment m)
    (h : (op.call environment m).1 = .error error) :
    (op.call environment m).2.db.tables = m.db.tables := by
  by_cases hread : op.onlyReads = true
  · rw [call_read_db hread]
  have hspares : Spares m.db.tables m.db.sequences op.run →
      (op.call environment m).2.db.tables = m.db.tables := fun hspares =>
    ServiceOperation.call_triple hspares ⟨hrest.1, rfl, rfl⟩ ⟨error, h⟩
  have hrun : runOn op.run (m.withEnvironment environment) = _ := op.runOn_eq_call
  rw [h] at hrun
  cases op with
  | createProduct product =>
      rw [ServiceOperation.run, RecipeService.createProduct] at hrun
      split at hrun
      · next hinvalid =>
          refine hspares ?_
          rw [ServiceOperation.run, RecipeService.createProduct, hinvalid]
          exact spares_error
      · exact createProduct_error hrest.1 (hback rfl) hrun
  | createRecipe recipe =>
      rw [ServiceOperation.run, RecipeService.createRecipe] at hrun
      split at hrun
      · next hinvalid =>
          refine hspares ?_
          rw [ServiceOperation.run, RecipeService.createRecipe, hinvalid]
          exact spares_error
      · exact createRecipe_error hrest (hback rfl) hrun
  | updateProduct productId product =>
      refine hspares ?_
      rw [ServiceOperation.run, RecipeService.updateProduct]
      split
      · exact spares_error
      · exact spares_requireFound (updateProduct_atomic productId product)
  | deleteProduct productId => exact hspares (spares_requireFound (deleteProduct_atomic productId))
  | updateRecipe recipeId recipe =>
      refine hspares ?_
      rw [ServiceOperation.run, RecipeService.updateRecipe]
      split
      · exact spares_error
      · exact spares_requireFound (updateRecipe_atomic recipeId recipe)
  | deleteRecipe recipeId => exact hspares (spares_requireFound (deleteRecipe_atomic recipeId))
  | _ => simp [ServiceOperation.onlyReads] at hread

/-- A valid store stays valid, and no transaction stays open. -/
theorem call_rests (hrest : Rests Store.Valid m) :
    Rests Store.Valid (op.call environment m).2 :=
  ServiceOperation.call_triple (op.run_keeps (rests_kept (Store.closed_valid {})) op.admitted_all)
    hrest

end

/-- An update or delete that succeeds has found its id. -/
theorem requireFound_eq_ok {message : String} {body : DbM Bool} {done : Unit} {m m' : DBManager}
    (h : runOn (do return RecipeService.requireFound message (← guarded (.ok <$> body))) m =
      (.ok (.ok done), m')) : runOn body m = (.ok true, m') := by
  obtain ⟨result, m₁, hbody, hreturn⟩ := runOn_bind_eq_ok h
  obtain ⟨hresult, rfl⟩ := Prod.mk.inj hreturn
  obtain rfl : result = .ok true := by
    rcases result with e | _ | _
    · simp [RecipeService.requireFound] at hresult
    · simp [RecipeService.requireFound] at hresult
    · rfl
  exact runOn_guarded_map_eq_ok hbody

/-! ## What a product submission returns -/

section

variable {environment : List StepOutcome} {m : DBManager} {productId : Int} {product : Product}

theorem call_getProduct_eq_ok {found : Option Product}
    (h : ((ServiceOperation.getProduct productId).call environment m).1 = .ok found) :
    found = findProduct m.db.tables productId := by
  have hrun : runOn (ServiceOperation.getProduct productId).run (m.withEnvironment environment) = _ :=
    ServiceOperation.runOn_eq_call
  rw [h] at hrun
  exact (getProduct_exact (runOn_guarded_map_eq_ok hrun)).1

/-- When a `getProduct` submission does not end in an error. -/
theorem call_getProduct_returns_iff :
    (∃ found, ((ServiceOperation.getProduct productId).call environment m).1 = .ok found) ↔
      m.failureOf (.read .selectProductById) = none ∧
        ∃ gap, (nextOutcome environment).1 = .proceed gap := by
  have hiff : _ ↔ m.failureOf (.read .selectProductById) = none ∧
      ∃ gap, (nextOutcome environment).1 = .proceed gap :=
    getProduct_returns_iff (m := m.withEnvironment environment) productId
  rw [← hiff]
  constructor
  · rintro ⟨found, hfound⟩
    have hrun : runOn (ServiceOperation.getProduct productId).run (m.withEnvironment environment) =
        _ := ServiceOperation.runOn_eq_call
    rw [hfound] at hrun
    exact ⟨found, _, runOn_guarded_map_eq_ok hrun⟩
  · rintro ⟨found, m', hrun⟩
    have hcall : runOn (ServiceOperation.getProduct productId).run (m.withEnvironment environment) =
        (.ok (.ok found), m') := runOn_guarded_map hrun
    exact ⟨found, by rw [ServiceOperation.call_of_runOn hcall]⟩

/-- A created product is stored under a new id, and returned with it. -/
theorem call_createProduct_eq_ok {created : Product}
    (h : ((ServiceOperation.createProduct product).call environment m).1 = .ok created)
    (hv : Store.Valid m.db.tables m.db.sequences) (hdates : product.dates = {}) :
    ∃ productId, 0 < productId ∧ productId < 2 ^ 63 ∧
      created = { product with id := some productId } ∧
      findProduct ((ServiceOperation.createProduct product).call environment m).2.db.tables
        productId = some created := by
  have hrun : runOn (ServiceOperation.createProduct product).run (m.withEnvironment environment) =
      _ := ServiceOperation.runOn_eq_call
  rw [h, ServiceOperation.run, RecipeService.createProduct] at hrun
  split at hrun
  · simp at hrun
  rw [createProduct_eq_createThenGet] at hrun
  obtain ⟨productId, m₁, hcreate, hget⟩ := createThenGet_eq_ok hrun
  obtain ⟨hexact, hdb⟩ := getProduct_exact hget
  obtain ⟨hstored, hnew, hbound⟩ := createProduct_stored hcreate
  have hnew : m.db.sequences.products < productId := hnew
  have hread : findProduct m₁.db.tables productId = some { product with id := some productId } := by
    rw [hstored, findProduct_append, readProduct_productRow hdates]
    intro row hrow heq
    have := (hv.productIdRange row hrow).2
    omega
  rw [hread] at hexact
  obtain rfl := Option.some_inj.mp hexact
  have hpos := hv.sequencesNonneg.1
  exact ⟨productId, by omega, hbound, rfl, by rw [hdb, hread]⟩

theorem call_updateProduct_eq_ok {updated : Unit}
    (h : ((ServiceOperation.updateProduct productId product).call environment m).1 = .ok updated)
    (hdates : product.dates = {}) :
    findProduct ((ServiceOperation.updateProduct productId product).call environment m).2.db.tables
      productId = some { product with id := some productId } := by
  have hrun : runOn (ServiceOperation.updateProduct productId product).run
      (m.withEnvironment environment) = _ := ServiceOperation.runOn_eq_call
  rw [h, ServiceOperation.run, RecipeService.updateProduct] at hrun
  split at hrun
  · simp at hrun
  obtain ⟨hrow, hstored⟩ := updateProduct_stored (requireFound_eq_ok hrun)
  rw [hstored, findProduct_update hrow, readProduct_productRow hdates]

end

end RecipesCore.App
