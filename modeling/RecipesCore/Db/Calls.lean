import RecipesCore.Db.DBManager

/-!
# Operations as calls of bound statements

Every operation resets a statement, binds *all* of its parameters and steps it, so what the
statement held before cannot matter except for a failure left by its last step. `execBound`,
`firstBound` and `queryBound` are these three steps as one call, and each operation is rewritten
into such calls (`insertProduct_eq`, …). From here on proofs speak about calls only: the triples
below say what a call does to the tables, whatever the statements hold.
-/

namespace RecipesCore.Db

open RecipesCore.Logic RecipesCore.Logic.Program
open RecipesCore.Sqlite
open RecipesCore.Types

/-! ## Binding a list of values -/

/-- The bindings after `values` were bound to `1, 2, …`. -/
def params (values : List Value) : Bindings
  | 0 => .null
  | i + 1 => values.getD i .null

theorem params_nil : params [] = fun _ => .null := by
  funext i
  cases i <;> rfl

/-- Binding one more value extends the list of those bound. -/
theorem update_params (values : List Value) (v : Value) :
    Function.update (params values) (values.length + 1) v = params (values ++ [v]) := by
  funext i
  cases i with
  | zero => simp [Function.update, params]
  | succ i =>
      rcases Nat.lt_trichotomy i values.length with h | h | h
      · have hne : i + 1 ≠ values.length + 1 := by omega
        simp [Function.update, params, Nat.ne_of_lt h, List.getElem?_append_left h]
      · subst h
        simp [Function.update, params]
      · have hlen : (values ++ [v]).length ≤ i := by simp; omega
        have hlen' : values.length ≤ i := by omega
        simp [Function.update, params, Nat.ne_of_gt h, List.getElem?_eq_none hlen,
          List.getElem?_eq_none hlen']

def bindAll (s : StatementId) : Nat → List Value → DbM Unit
  | _, [] => pure ()
  | i, v :: values => do
      bind s i v
      bindAll s (i + 1) values

def prepare (s : StatementId) (values : List Value) : DbM Unit := do
  resetStatement s
  bindAll s 1 values

namespace DBManager

/-- The manager once `values` are bound to a statement that was just reset. -/
def prepared (s : StatementId) (values : List Value) (m : DBManager) : DBManager :=
  m.setStatement s { bindings := params values, failure := none }

/-- The manager once a failed statement was reset. -/
def clearFailure (s : StatementId) (m : DBManager) : DBManager :=
  m.setStatement s { m.statements s with failure := none }

def failureOf (m : DBManager) (s : StatementId) : Option SqliteException :=
  (m.statements s).failure

/-- Setting a statement leaves the data, the snapshot and the steps ahead alone. -/
@[simp] theorem setStatement_db (s : StatementId) (st : Statement) (m : DBManager) :
    (m.setStatement s st).db = m.db := rfl
@[simp] theorem setStatement_saved (s : StatementId) (st : Statement) (m : DBManager) :
    (m.setStatement s st).saved = m.saved := rfl
@[simp] theorem setStatement_environment (s : StatementId) (st : Statement) (m : DBManager) :
    (m.setStatement s st).environment = m.environment := rfl
@[simp] theorem setStatement_statements_self (s : StatementId) (st : Statement) (m : DBManager) :
    (m.setStatement s st).statements s = st := by simp [setStatement]
@[simp] theorem setStatement_setStatement (s : StatementId) (st st' : Statement) (m : DBManager) :
    (m.setStatement s st).setStatement s st' = m.setStatement s st' := by
  simp [setStatement]

/-- Another statement is not touched. -/
theorem setStatement_statements_ne {s s' : StatementId} (h : s' ≠ s) (st : Statement)
    (m : DBManager) : (m.setStatement s st).statements s' = m.statements s' := by
  simp [setStatement, Function.update_of_ne h]

end DBManager

open DBManager

/-- `bindAll` binds the values behind those that are bound already. -/
theorem runOn_bindAll (s : StatementId) (values : List Value) :
    ∀ (bound : List Value) (m : DBManager), (m.statements s).bindings = params bound →
      runOn (bindAll s (bound.length + 1) values) m =
        (.ok (), m.setStatement s
          { bindings := params (bound ++ values), failure := m.failureOf s }) := by
  induction values with
  | nil =>
      intro bound m h
      simp only [bindAll, runOn_pure, List.append_nil, Prod.mk.injEq, true_and]
      have hst : m.statements s = { bindings := params bound, failure := m.failureOf s } := by
        rw [← h]
        rfl
      rw [← hst]
      simp [setStatement]
  | cons v values ih =>
      intro bound m h
      have hb : runOn (bind s (bound.length + 1) v) m = (.ok (), m.setStatement s
          { bindings := params (bound ++ [v]), failure := m.failureOf s }) := by
        simp [bind, h, update_params, failureOf]
      rw [bindAll, runOn_bind_ok hb]
      have := ih (bound ++ [v]) (m.setStatement s
        { bindings := params (bound ++ [v]), failure := m.failureOf s }) (by simp)
      simpa [failureOf] using this

/-- **What reset-and-bind does.** A failure left by the statement's last step is thrown, and the
parameters stay unbound; otherwise nothing of what the statement held before is left. -/
theorem runOn_prepare (s : StatementId) (values : List Value) (m : DBManager) :
    runOn (prepare s values) m =
      match m.failureOf s with
      | some exception => (.error (.sqlite exception), m.clearFailure s)
      | none => (.ok (), m.prepared s values) := by
  cases hf : m.failureOf s with
  | some exception =>
      have hr : runOn (reset s) m = (.error (.sqlite exception), m.clearFailure s) := by
        simp only [failureOf] at hf
        simp [reset, hf, clearFailure]
      rw [prepare, resetStatement, runOn_bind_error (runOn_bind_error hr)]
  | none =>
      have hr : runOn (reset s) m = (.ok (), m.clearFailure s) := by
        simp only [failureOf] at hf
        simp [reset, hf, clearFailure]
      have hc : runOn (clearBindings s) (m.clearFailure s) = (.ok (), m.prepared s []) := by
        simp [clearBindings, clearFailure, prepared, params_nil]
      have hrs : runOn (resetStatement s) m = (.ok (), m.prepared s []) := by
        rw [resetStatement, runOn_bind_ok hr, hc]
      rw [prepare, runOn_bind_ok hrs]
      simpa [prepared, failureOf] using runOn_bindAll s values [] (m.prepared s []) (by simp [prepared])

/-! ## Bound calls -/

def execBound (w : Write) (values : List Value) : DbM Unit := do
  prepare (.write w) values
  exec w

def firstBound (r : Read) (values : List Value) : DbM (Option Row) := do
  prepare (.read r) values
  executeStep r

def queryBound {β : Type} (r : Read) (values : List Value) (visit : β → Row → β) (start : β) :
    DbM β := do
  prepare (.read r) values
  whileExecuteStep r visit start

/-- The five values of `BindProduct`. -/
def productValues (product : Product) : List Value :=
  [.text product.name, .integer product.dimension.code, .integer product.amount.toInt,
    .ofNullable (fun date => .text (toDateString date)) product.dates.manufacture,
    .ofNullable (fun date => .text (toDateString date)) product.dates.expiration]

def ingredientValues (recipeId : Int) (ingredient : Product) : List Value :=
  [.integer recipeId, .text ingredient.name, .integer ingredient.dimension.code,
    .integer ingredient.amount.toInt]

/-! ## The operations in terms of calls -/

/-- `InsertProduct` is one writing statement. -/
theorem insertProduct_eq (product : Product) :
    insertProduct product = execBound .insertProduct (productValues product) := by
  simp [insertProduct, execBound, prepare, bindProduct, bindAll, productValues]

/-- `CreateProduct` also asks for the id of the new row. -/
theorem createProduct_eq (product : Product) :
    createProduct product = (do
      execBound .createProduct (productValues product)
      getLastInsertRowid) := by
  simp [createProduct, execBound, prepare, bindProduct, bindAll, productValues]

theorem getProduct_eq (productId : Int) :
    getProduct productId = (do
      let row ← firstBound .selectProductById [.integer productId]
      return row.map readProduct) := by
  simp [getProduct, firstBound, prepare, bindAll]

/-- An update is told apart from one that found nothing by the rows it changed. -/
theorem updateProduct_eq (productId : Int) (product : Product) :
    updateProduct productId product = (do
      execBound .updateProductById (productValues product ++ [.integer productId])
      return (← getChanges) == 1) := by
  simp [updateProduct, execBound, prepare, bindProduct, bindAll, productValues]

theorem deleteProduct_eq (productId : Int) :
    deleteProduct productId = (do
      execBound .deleteProductById [.integer productId]
      return (← getChanges) == 1) := by
  simp [deleteProduct, execBound, prepare, bindAll]

theorem getAllProducts_eq :
    getAllProducts = queryBound .selectAllProducts []
      (fun products row => products ++ [readProduct row]) [] := by
  simp [getAllProducts, queryBound, prepare, bindAll]

theorem getRecipeIngredients_eq (recipeId : Int) :
    getRecipeIngredients recipeId =
      queryBound .selectRecipeIngredientsByRecipeId [.integer recipeId]
        (fun ingredients row => ingredients ++ [readIngredient row 0]) [] := by
  simp [getRecipeIngredients, queryBound, prepare, bindAll]

theorem insertIngredient_eq (recipeId : Int) (ingredient : Product) :
    insertIngredient recipeId ingredient =
      execBound .insertRecipeIngredient (ingredientValues recipeId ingredient) := by
  simp [insertIngredient, execBound, prepare, bindAll, ingredientValues]

/-- The ingredients of a recipe are deleted, and inserted one by one. -/
theorem replaceRecipeIngredients_eq (recipeId : Int) (recipe : Recipe) :
    replaceRecipeIngredients recipeId recipe = (do
      execBound .deleteRecipeIngredientsByRecipeId [.integer recipeId]
      recipe.ingredients.forM (insertIngredient recipeId)) := by
  simp [replaceRecipeIngredients, execBound, prepare, bindAll]

/-- What `InsertRecipe` and each turn of `InsertRecipes` do before the commit. -/
def insertRecipeBody (recipe : Recipe) : DbM Unit := do
  execBound .insertRecipeIfAbsent [.text recipe.name]
  match ← firstBound .selectRecipeIdByName [.text recipe.name] with
  | none => throw (.runtimeError "Failed to retrieve recipe id after insert")
  | some row => replaceRecipeIngredients (getColumn row 0).getInt64 recipe

/-- `InsertRecipe` is one transaction around its body. -/
theorem insertRecipe_eq (recipe : Recipe) :
    insertRecipe recipe = transaction (do
      insertRecipeBody recipe
      commit) := by
  simp only [insertRecipe, insertRecipeBody, execBound, firstBound, prepare, bindAll, bind_assoc,
    pure_bind]
  refine congrArg transaction ?_
  iterate 6 refine bind_congr fun _ => ?_
  next row => cases row <;> rfl

/-- `InsertRecipes` is one transaction around all bodies. -/
theorem insertRecipes_eq (recipes : List Recipe) :
    insertRecipes recipes = transaction (do
      recipes.forM insertRecipeBody
      commit) := by
  refine congrArg (fun body => transaction (List.forM recipes body >>= fun _ => commit)) ?_
  funext recipe
  have hbody : insertRecipeBody recipe = insertRecipeBody recipe := rfl
  conv_rhs at hbody =>
    simp only [insertRecipeBody, execBound, firstBound, prepare, bindAll, bind_assoc, pure_bind]
  exact hbody.symm

/-- `CreateRecipe` commits before it returns the id. -/
theorem createRecipe_eq (recipe : Recipe) :
    createRecipe recipe = transaction (do
      execBound .createRecipe [.text recipe.name]
      let recipeId ← getLastInsertRowid
      replaceRecipeIngredients recipeId recipe
      commit
      return recipeId) := by
  simp [createRecipe, execBound, prepare, bindAll]

/-- `UpdateRecipe` leaves its transaction uncommitted when there is no such recipe. -/
theorem updateRecipe_eq (recipeId : Int) (recipe : Recipe) :
    updateRecipe recipeId recipe = transaction (do
      execBound .updateRecipeNameById [.text recipe.name, .integer recipeId]
      if (← getChanges) != 1 then
        return false
      replaceRecipeIngredients recipeId recipe
      commit
      return true) := by
  simp [updateRecipe, execBound, prepare, bindAll]

theorem deleteRecipe_eq (recipeId : Int) :
    deleteRecipe recipeId = (do
      execBound .deleteRecipeById [.integer recipeId]
      return (← getChanges) == 1) := by
  simp [deleteRecipe, execBound, prepare, bindAll]

/-- `GetRecipe` keeps the first recipe of those it groups. -/
theorem getRecipe_eq (recipeId : Int) :
    getRecipe recipeId = (do
      let fetching ← queryBound .selectRecipeByIdWithIngredients [.integer recipeId] fetchRow {}
      return fetching.recipes.head?) := by
  simp [getRecipe, fetchRecipes, queryBound, prepare, bindAll]

/-- Without an id to bind all recipes of the `SELECT` are grouped. -/
theorem fetchRecipes_none_eq (r : Read) :
    fetchRecipes r none = (do
      let fetching ← queryBound r [] fetchRow {}
      return fetching.recipes) := by
  simp [fetchRecipes, queryBound, prepare, bindAll]

/-! ## What a call does to the tables -/

section Triples

variable {J : Database → Option (Tables × Sequences) → Prop} {w : Write} {r : Read}
  {values : List Value}

/-- SQLite goes on or fails; with nothing said of it, it goes on. -/
theorem nextOutcome_cases (environment : List StepOutcome) :
    (∃ gap rest, nextOutcome environment = (.proceed gap, rest)) ∨
      ∃ exception rest, nextOutcome environment = (.fail exception, rest) := by
  rcases nextOutcome environment with ⟨gap | exception, rest⟩
  · exact Or.inl ⟨gap, rest, rfl⟩
  · exact Or.inr ⟨exception, rest, rfl⟩

theorem runOn_step {s : StatementId} {m : DBManager} {gap : Nat} {rest : List StepOutcome}
    (h : nextOutcome m.environment = (.proceed gap, rest)) :
    runOn (step s) m = (.ok gap, { m with environment := rest }) := by
  simp only [step, runOn_primitive, h]

/-- A statement whose step fails holds the failure. -/
theorem runOn_step_fail {s : StatementId} {m : DBManager} {exception : SqliteException}
    {rest : List StepOutcome} (h : nextOutcome m.environment = (.fail exception, rest)) :
    runOn (step s) m = (.error (.sqlite exception),
      { m with environment := rest }.recordFailure s exception) := by
  simp only [step, runOn_primitive, h]

/-- A step of SQLite's own changes nothing a `J` speaks about. -/
theorem step_triple (s : StatementId) :
    Triple (fun m => J m.db m.saved) (step s) (fun _ m => J m.db m.saved)
      (fun _ m => J m.db m.saved) := by
  intro m hm
  rcases nextOutcome_cases m.environment with ⟨gap, rest, h⟩ | ⟨exception, rest, h⟩
  · rw [runOn_step h]
    exact hm
  · rw [runOn_step_fail h]
    exact hm

/-- `BEGIN` and `COMMIT` either do their work or leave data and snapshot as they are. -/
theorem execDirect_triple {K : Database → Option (Tables × Sequences) → Prop}
    {f : DBManager → DBManager}
    (hf : ∀ m, J m.db m.saved → K (f m).db (f m).saved) :
    Triple (fun m => J m.db m.saved) (execDirect f) (fun _ m => K m.db m.saved)
      (fun _ m => J m.db m.saved) := by
  intro m hm
  rcases nextOutcome_cases m.environment with ⟨gap, rest, h⟩ | ⟨exception, rest, h⟩
  · simpa only [execDirect, runOn_primitive, h] using hf { m with environment := rest } hm
  · simpa only [execDirect, runOn_primitive, h] using hm

/-- Preparing a statement binds its values, when it does not throw, and touches no data. -/
theorem prepare_triple (s : StatementId) :
    Triple (fun m => J m.db m.saved) (prepare s values)
      (fun _ m => J m.db m.saved ∧ (m.statements s).bindings = params values)
      (fun _ m => J m.db m.saved) := by
  intro m hm
  rw [runOn_prepare]
  cases m.failureOf s with
  | some exception => exact hm
  | none => exact ⟨hm, by simp [prepared]⟩

/-- A writing call either applies its SQL to the database or leaves the database alone. -/
theorem execBound_triple :
    Triple (fun m => J m.db m.saved) (execBound w values)
      (fun _ m => ∃ gap db, J db m.saved ∧ w.sql (params values) gap db = .ok m.db)
      (fun _ m => J m.db m.saved) := by
  refine Triple.bind (prepare_triple (.write w)) fun _ => ?_
  rintro m ⟨hJ, hparams⟩
  rcases nextOutcome_cases m.environment with ⟨gap, rest, h⟩ | ⟨exception, rest, h⟩
  · rw [exec, runOn_bind_ok (runOn_step h), runOn_primitive, hparams]
    cases hsql : w.sql (params values) gap m.db with
    | error exception => exact hJ
    | ok db => exact ⟨gap, m.db, hJ, hsql⟩
  · rw [exec, runOn_bind_error (runOn_step_fail h)]
    exact hJ

/-- The rows are visited in their order, and no data is touched. -/
theorem stepThrough_triple {β : Type} (visit : β → Row → β) :
    ∀ (rows : List Row) (acc : β),
      Triple (fun m => J m.db m.saved) (stepThrough r visit acc rows)
        (fun b m => J m.db m.saved ∧ b = rows.foldl visit acc) (fun _ m => J m.db m.saved)
  | [], _ => Triple.bind (step_triple (.read r)) fun _ => Triple.pure fun _ hm => ⟨hm, rfl⟩
  | row :: rest, acc =>
      Triple.bind (step_triple (.read r)) fun _ => stepThrough_triple visit rest (visit acc row)

/-- A `SELECT` call leaves the database alone, and folds over the rows of its query. -/
theorem queryBound_triple {β : Type} (visit : β → Row → β) (start : β) :
    Triple (fun m => J m.db m.saved) (queryBound r values visit start)
      (fun b m => J m.db m.saved ∧ b = (r.sql (params values) m.db.tables).foldl visit start)
      (fun _ m => J m.db m.saved) := by
  refine Triple.bind (prepare_triple (.read r)) fun _ => ?_
  refine Triple.bind (Q := fun rows m => J m.db m.saved ∧ rows = r.sql (params values) m.db.tables)
    ?_ fun rows => ?_
  · rintro m ⟨hJ, hparams⟩
    exact ⟨hJ, by rw [hparams]⟩
  · refine (stepThrough_triple (J := fun db saved => J db saved ∧
      rows = r.sql (params values) db.tables) visit rows start).conseq (fun _ h => h) ?_ ?_
    · rintro b m ⟨⟨hJ, hrows⟩, hb⟩
      exact ⟨hJ, by rw [hb, hrows]⟩
    · rintro e m ⟨hJ, -⟩
      exact hJ

/-- One `executeStep` offers the first row of the query. -/
theorem firstBound_triple :
    Triple (fun m => J m.db m.saved) (firstBound r values)
      (fun row m => J m.db m.saved ∧ row = (r.sql (params values) m.db.tables).head?)
      (fun _ m => J m.db m.saved) := by
  refine Triple.bind (prepare_triple (.read r)) fun _ => ?_
  rintro m ⟨hJ, hparams⟩
  rcases nextOutcome_cases m.environment with ⟨gap, rest, h⟩ | ⟨exception, rest, h⟩
  · rw [executeStep, runOn_bind_ok (runOn_step h)]
    exact ⟨hJ, by simp [← hparams]⟩
  · rw [executeStep, runOn_bind_error (runOn_step_fail h)]
    exact hJ

end Triples

end RecipesCore.Db
