import RecipesCore.Db.Calm

/-!
# Managers that hold the same data

A manager `s` mirrors `m` when it holds the same data and its writing statements are in the same
state, and none of its `SELECT`s was left failed. What `m` does to the data, `s` can do as well, if
SQLite treats it alike: a writing part is *replayed*, with the same result, and a reading part
answers on `s` whatever became of it on `m`.
-/

namespace RecipesCore.Db

open RecipesCore.Logic RecipesCore.Logic.Program
open RecipesCore.Sqlite
open RecipesCore.Types
open DBManager

structure Mirrors (m s : DBManager) : Prop where
  db : s.db = m.db
  saved : s.saved = m.saved
  writes : ∀ w, s.statements (.write w) = m.statements (.write w)
  reads : ∀ r, s.failureOf (.read r) = none

/-- The steps ahead do not count. -/
theorem Mirrors.withEnvironment {m s : DBManager} (h : Mirrors m s)
    (environment environment' : List StepOutcome) :
    Mirrors (m.withEnvironment environment) (s.withEnvironment environment') :=
  ⟨h.db, h.saved, h.writes, h.reads⟩

/-! ## Writing parts -/

/-- On a mirror, `body` has the same result and ends in a mirror, for suitable steps `used` that
depend on `m` alone; what comes after them is left. -/
def Replayed {α : Type} (body : DbM α) : Prop :=
  ∀ m, ∃ used, ∀ s extra, Mirrors m s → ∃ s',
    runOn body (s.withEnvironment (used ++ extra)) = ((runOn body m).1, s'.withEnvironment extra) ∧
      Mirrors (runOn body m).2 s'

namespace Replayed

variable {α β : Type} {body : DbM α}

theorem pure {a : α} : Replayed (Pure.pure a : DbM α) :=
  fun _ => ⟨[], fun s _ h => ⟨s, rfl, h⟩⟩

/-- What looks at the data only. -/
theorem look {f : Database → α} : Replayed (primitive fun m => (.ok (f m.db), m) : DbM α) :=
  fun m => ⟨[], fun s extra h => ⟨s, by
    rw [runOn_primitive, runOn_primitive, List.nil_append]
    exact congrArg (fun db => (Except.ok (f db), s.withEnvironment extra)) h.db, h⟩⟩

/-- Parts in a row are replayed with the steps of the first, then those of the second. -/
theorem bind {k : α → DbM β} (h : Replayed body) (hk : ∀ a, Replayed (k a)) :
    Replayed (body >>= k) := by
  intro m
  obtain ⟨used, hused⟩ := h m
  rcases hbody : runOn body m with ⟨e | a, m₁⟩
  · refine ⟨used, fun s extra hs => ?_⟩
    obtain ⟨s', hs', hmirrors⟩ := hused s extra hs
    rw [hbody] at hs' hmirrors
    refine ⟨s', ?_, ?_⟩
    · rw [runOn_bind_error hs', runOn_bind_error hbody]
    · rwa [runOn_bind_error hbody]
  · obtain ⟨used', hused'⟩ := hk a m₁
    refine ⟨used ++ used', fun s extra hs => ?_⟩
    obtain ⟨s₁, hs₁, hmirrors⟩ := hused s (used' ++ extra) hs
    rw [hbody] at hs₁ hmirrors
    obtain ⟨s', hs', hmirrors'⟩ := hused' s₁ extra hmirrors
    refine ⟨s', ?_, ?_⟩
    · rw [List.append_assoc, runOn_bind_ok hs₁, hs', runOn_bind_ok hbody]
    · rwa [runOn_bind_ok hbody]

theorem map {f : α → β} (h : Replayed body) : Replayed (f <$> body) := by
  rw [map_eq_pure_bind]
  exact h.bind fun _ => Replayed.pure

/-- A loop is replayed when each of its rounds is. -/
theorem forM {xs : List α} {loop : α → DbM PUnit} (h : ∀ a, Replayed (loop a)) :
    Replayed (xs.forM loop) := by
  induction xs with
  | nil => exact Replayed.pure
  | cons a xs ih =>
      rw [List.forM_eq_forM, List.forM_cons]
      exact (h a).bind fun _ => ih

end Replayed

/-- A writing statement set alike on both sides. -/
theorem mirrors_setWrite {m s : DBManager} (h : Mirrors m s) (w : Write) (st : Statement) :
    Mirrors (m.setStatement (.write w) st) (s.setStatement (.write w) st) where
  db := h.db
  saved := h.saved
  writes w' := by
    by_cases hw : w' = w
    · rw [hw, setStatement_statements_self, setStatement_statements_self]
    · have hne : StatementId.write w' ≠ .write w := fun heq => hw (StatementId.write.inj heq)
      rw [setStatement_statements_ne hne, setStatement_statements_ne hne, h.writes]
  reads r := by
    rw [failureOf_setStatement, if_neg (by simp)]
    exact h.reads r

/-- Both sides forget how a writing statement failed. -/
theorem mirrors_clearFailure {m s : DBManager} (h : Mirrors m s) (w : Write) :
    Mirrors (m.clearFailure (.write w)) (s.clearFailure (.write w)) := by
  have hs : s.clearFailure (.write w) =
      s.setStatement (.write w) { m.statements (.write w) with failure := none } := by
    rw [clearFailure, h.writes w]
  rw [hs]
  exact mirrors_setWrite h w _

/-- On both sides a writing statement is left with the same failure. -/
theorem mirrors_recordFailure {m s : DBManager} (h : Mirrors m s) (w : Write)
    (exception : SqliteException) :
    Mirrors (m.recordFailure (.write w) exception) (s.recordFailure (.write w) exception) := by
  have hs : s.recordFailure (.write w) exception =
      s.setStatement (.write w) { m.statements (.write w) with failure := some exception } := by
    rw [recordFailure, h.writes w]
  rw [hs]
  exact mirrors_setWrite h w _

/-- A writing statement was left failed on both sides or on none. -/
theorem prepare_replayed {w : Write} {values : List Value} :
    Replayed (prepare (.write w) values) := by
  intro m
  refine ⟨[], fun s extra h => ?_⟩
  have hflag : (s.withEnvironment extra).failureOf (.write w) = m.failureOf (.write w) :=
    congrArg Statement.failure (h.writes w)
  rw [List.nil_append, runOn_prepare, runOn_prepare, hflag]
  cases m.failureOf (.write w) with
  | some exception =>
      exact ⟨s.clearFailure (.write w), rfl, mirrors_clearFailure h w⟩
  | none => exact ⟨s.prepared (.write w) values, rfl, mirrors_setWrite h w _⟩

/-- The mirror is given the step that is ahead of `m`. -/
theorem step_replayed {w : Write} : Replayed (step (.write w)) := by
  intro m
  rcases nextOutcome_cases m.environment with ⟨gap, rest, hnext⟩ | ⟨exception, rest, hnext⟩
  · refine ⟨[.proceed gap], fun s extra h => ⟨s, ?_, ?_⟩⟩
    · rw [runOn_step hnext, runOn_step rfl]
      rfl
    · rw [runOn_step hnext]
      exact h.withEnvironment rest s.environment
  · refine ⟨[.fail exception], fun s extra h => ⟨s.recordFailure (.write w) exception, ?_, ?_⟩⟩
    · rw [runOn_step_fail hnext, runOn_step_fail rfl]
      rfl
    · rw [runOn_step_fail hnext]
      exact mirrors_recordFailure (h.withEnvironment rest s.environment) w exception

/-- **A writing statement is replayed**: the same bindings meet the same data. -/
theorem execBound_replayed {w : Write} {values : List Value} :
    Replayed (execBound w values) := by
  refine prepare_replayed.bind fun _ => step_replayed.bind fun gap => ?_
  intro m
  refine ⟨[], fun s extra h => ?_⟩
  rw [List.nil_append, runOn_primitive, runOn_primitive]
  have hst : (s.withEnvironment extra).statements (.write w) = m.statements (.write w) := h.writes w
  have hdb : (s.withEnvironment extra).db = m.db := h.db
  rw [hst, hdb]
  cases w.sql (m.statements (.write w)).bindings gap m.db with
  | ok db => exact ⟨{ s with db }, rfl, ⟨rfl, h.saved, h.writes, h.reads⟩⟩
  | error exception =>
      exact ⟨s.recordFailure (.write w) exception, rfl, mirrors_recordFailure h w exception⟩

/-! ## Transactions -/

/-- `BEGIN` and `COMMIT` take one step and change both sides alike. -/
theorem execDirect_replayed {f : DBManager → DBManager}
    (hf : ∀ m s, Mirrors m s → Mirrors (f m) (f s))
    (henvironment : ∀ m environment, f (m.withEnvironment environment) =
      (f m).withEnvironment environment) : Replayed (execDirect f) := by
  intro m
  rcases nextOutcome_cases m.environment with ⟨gap, rest, hnext⟩ | ⟨exception, rest, hnext⟩
  · refine ⟨[.proceed gap], fun s extra h => ⟨f s, ?_, ?_⟩⟩
    · simp only [execDirect, runOn_primitive, hnext]
      exact congrArg (Prod.mk _) (henvironment s extra)
    · simp only [execDirect, runOn_primitive, hnext]
      exact hf _ _ (h.withEnvironment rest s.environment)
  · refine ⟨[.fail exception], fun s extra h => ⟨s, ?_, ?_⟩⟩
    · simp only [execDirect, runOn_primitive, hnext]
      rfl
    · simp only [execDirect, runOn_primitive, hnext]
      exact h.withEnvironment rest s.environment

theorem commit_replayed : Replayed commit :=
  execDirect_replayed (fun _ _ h => ⟨h.db, rfl, h.writes, h.reads⟩) fun _ _ => rfl

/-- Both sides go back to the same snapshot. -/
theorem mirrors_rollback {m s : DBManager} (h : Mirrors m s) :
    Mirrors (rollbackUnlessCommitted m) (rollbackUnlessCommitted s) := by
  unfold rollbackUnlessCommitted
  rw [h.saved]
  cases m.saved with
  | none => exact h
  | some snapshot => exact ⟨by rw [h.db], rfl, h.writes, h.reads⟩

/-- A rollback takes no step. -/
theorem rollback_withEnvironment (m : DBManager) (environment : List StepOutcome) :
    rollbackUnlessCommitted (m.withEnvironment environment) =
      (rollbackUnlessCommitted m).withEnvironment environment := by
  obtain ⟨db, _ | snapshot, statements, steps⟩ := m <;> rfl

/-- A transaction is replayed when its block is, whether it commits or not. -/
theorem transaction_replayed {α : Type} {block : DbM α} (h : Replayed block) :
    Replayed (transaction block) := by
  refine Replayed.bind (execDirect_replayed (fun m s h => ⟨h.db, by rw [h.db], h.writes, h.reads⟩)
    fun _ _ => rfl) fun _ => ?_
  intro m
  obtain ⟨used, hused⟩ := h m
  refine ⟨used, fun s extra hs => ?_⟩
  obtain ⟨s', hs', hmirrors⟩ := hused s extra hs
  refine ⟨rollbackUnlessCommitted s', ?_, mirrors_rollback hmirrors⟩
  rw [runOn_ensuring, runOn_ensuring, hs', rollback_withEnvironment]

/-! ## Operations -/

theorem createProduct_replayed (product : Product) : Replayed (createProduct product) := by
  rw [createProduct_eq]
  exact execBound_replayed.bind fun _ => Replayed.look

/-- The last line of an update or delete. -/
theorem changesIsOne_replayed : Replayed (do return (← getChanges) == 1) :=
  Replayed.bind Replayed.look fun _ => Replayed.pure

theorem updateProduct_replayed (productId : Int) (product : Product) :
    Replayed (updateProduct productId product) := by
  rw [updateProduct_eq]
  exact execBound_replayed.bind fun _ => changesIsOne_replayed

theorem deleteProduct_replayed (productId : Int) : Replayed (deleteProduct productId) := by
  rw [deleteProduct_eq]
  exact execBound_replayed.bind fun _ => changesIsOne_replayed

/-- The ingredients of a recipe are deleted, and inserted one by one. -/
theorem replaceRecipeIngredients_replayed (recipeId : Int) (recipe : Recipe) :
    Replayed (replaceRecipeIngredients recipeId recipe) := by
  rw [replaceRecipeIngredients_eq]
  refine execBound_replayed.bind fun _ => Replayed.forM fun ingredient => ?_
  rw [insertIngredient_eq]
  exact execBound_replayed

/-- Creating a recipe, with its ingredients, is replayed as one transaction. -/
theorem createRecipe_replayed (recipe : Recipe) : Replayed (createRecipe recipe) := by
  rw [createRecipe_eq]
  refine transaction_replayed (execBound_replayed.bind fun _ => Replayed.look.bind fun recipeId => ?_)
  refine (replaceRecipeIngredients_replayed recipeId recipe).bind fun _ => ?_
  exact commit_replayed.bind fun _ => Replayed.pure

/-- An update that finds no recipe ends before the ingredients, and without a commit. -/
theorem updateRecipe_replayed (recipeId : Int) (recipe : Recipe) :
    Replayed (updateRecipe recipeId recipe) := by
  rw [updateRecipe_eq]
  refine transaction_replayed (execBound_replayed.bind fun _ => Replayed.look.bind fun changes => ?_)
  split
  · exact Replayed.pure
  · refine (replaceRecipeIngredients_replayed recipeId recipe).bind fun _ => ?_
    exact commit_replayed.bind fun _ => Replayed.pure

theorem deleteRecipe_replayed (recipeId : Int) : Replayed (deleteRecipe recipeId) := by
  rw [deleteRecipe_eq]
  exact execBound_replayed.bind fun _ => changesIsOne_replayed

/-! ## Reading parts -/

/-- `body` reads `answer` off the tables: it returns nothing else, and returns when all is calm. -/
structure ReadsAs {α : Type} (body : DbM α) (answer : Tables → α) : Prop where
  keeps : ∀ {P}, KeptByReads P → Keeps P body
  exact : ∀ m a m', runOn body m = (.ok a, m') → a = answer m.db.tables
  calm : Triple Calm body (fun _ => Calm) fun _ _ => False

namespace ReadsAs

/-- The first row of a `SELECT`. -/
theorem first {r : Read} {values : List Value} :
    ReadsAs (firstBound r values) fun tables => (r.sql (params values) tables).head? where
  keeps h := h.first
  exact m a m' hrun := by
    obtain ⟨hdb, ha⟩ := (firstBound_triple (J := fun db _ => db = m.db)).of_ok rfl hrun
    rw [ha, hdb]
  calm := firstBound_calm

/-- All rows of a `SELECT`, visited one after the other. -/
theorem query {β : Type} {r : Read} {values : List Value} {visit : β → Row → β} {start : β} :
    ReadsAs (queryBound r values visit start)
      fun tables => (r.sql (params values) tables).foldl visit start where
  keeps h := h.query
  exact m a m' hrun := by
    obtain ⟨hdb, ha⟩ := (queryBound_triple (J := fun db _ => db = m.db) visit start).of_ok rfl hrun
    rw [ha, hdb]
  calm := queryBound_calm

/-- What is made of an answer is an answer. -/
theorem thenReturn {α β : Type} {body : DbM α} {answer : Tables → α} (h : ReadsAs body answer)
    (f : α → β) : ReadsAs (do let a ← body; return f a) fun tables => f (answer tables) where
  keeps hP := (h.keeps hP).bind fun _ => Keeps.pure
  exact m b m' hrun := by
    obtain ⟨a, m₁, ha, hpure⟩ := runOn_bind_eq_ok hrun
    simp only [runOn_pure, Prod.mk.injEq, Except.ok.injEq] at hpure
    rw [← hpure.1, h.exact m a m₁ ha]
  calm := Triple.bind h.calm fun _ => Triple.pure fun _ hm => hm

end ReadsAs

/-- `GetProduct` reads the product off the one row with the id. -/
theorem getProduct_readsAs (productId : Int) : ReadsAs (getProduct productId) fun tables =>
    (Read.selectProductById.sql (params [.integer productId]) tables).head?.map readProduct := by
  rw [getProduct_eq]
  exact ReadsAs.first.thenReturn fun row => row.map readProduct

/-- `GetAllProducts` reads a product off every row. -/
theorem getAllProducts_readsAs : ReadsAs getAllProducts fun tables =>
    (Read.selectAllProducts.sql (params []) tables).foldl
      (fun products row => products ++ [readProduct row]) [] := by
  rw [getAllProducts_eq]
  exact ReadsAs.query

theorem getRecipeIngredients_readsAs (recipeId : Int) :
    ReadsAs (getRecipeIngredients recipeId) fun tables =>
      (Read.selectRecipeIngredientsByRecipeId.sql (params [.integer recipeId]) tables).foldl
        (fun ingredients row => ingredients ++ [readIngredient row 0]) [] := by
  rw [getRecipeIngredients_eq]
  exact ReadsAs.query

/-- `GetRecipe` groups the rows of the join, which all belong to one recipe. -/
theorem getRecipe_readsAs (recipeId : Int) : ReadsAs (getRecipe recipeId) fun tables =>
    ((Read.selectRecipeByIdWithIngredients.sql (params [.integer recipeId]) tables).foldl fetchRow
      {}).recipes.head? := by
  rw [getRecipe_eq]
  exact ReadsAs.query.thenReturn fun fetching : Fetching => fetching.recipes.head?

/-- The readers of several recipes group the rows of the join by recipe. -/
theorem fetchRecipes_readsAs (r : Read) : ReadsAs (fetchRecipes r none) fun tables =>
    ((r.sql (params []) tables).foldl fetchRow {}).recipes := by
  rw [fetchRecipes_none_eq]
  exact ReadsAs.query.thenReturn Fetching.recipes

/-- Whoever holds the tables reads `a`: nothing else is returned, and it is returned when all is
calm. -/
structure Reads {α : Type} (tables : Tables) (body : DbM α) (a : α) : Prop where
  exact : ∀ s b s', s.db.tables = tables → runOn body s = (.ok b, s') → b = a
  returns : ∀ s, s.db.tables = tables → Calm s → ∃ s', runOn body s = (.ok a, s')

/-- Over given tables the answer is a single value. -/
theorem ReadsAs.reads {α : Type} {body : DbM α} {answer : Tables → α} (h : ReadsAs body answer)
    (tables : Tables) : Reads tables body (answer tables) := by
  have hexact : ∀ s b s', s.db.tables = tables → runOn body s = (.ok b, s') → b = answer tables := by
    intro s b s' hs hrun
    rw [h.exact s b s' hrun, hs]
  refine ⟨hexact, fun s hs hcalm => ?_⟩
  rcases hrun : runOn body s with ⟨e | b, s'⟩
  · exact (h.calm.of_error hcalm hrun).elim
  · exact ⟨s', by rw [hexact s b s' hs hrun]⟩

/-- Two values that are both read are equal, as some manager over the tables is calm. -/
theorem Reads.unique {α : Type} {tables : Tables} {body : DbM α} {a b : α}
    (h : Reads tables body a) (h' : Reads tables body b) : a = b := by
  have hcalm : Calm (onTables tables {}) := ⟨by simp [Undisturbed, onTables], fun _ => rfl⟩
  obtain ⟨s', hrun⟩ := h.returns (onTables tables {}) rfl hcalm
  exact h'.exact _ a s' rfl hrun

/-- **A reading part leaves a mirror a mirror**, and answers on the mirror. -/
theorem ReadsAs.mirrors {α : Type} {body : DbM α} {answer : Tables → α} (h : ReadsAs body answer)
    {m s : DBManager} (hs : Mirrors m s) :
    Mirrors (runOn body m).2 s ∧ ∃ s', runOn body (s.withEnvironment []) =
      (.ok (answer m.db.tables), s') ∧ ∀ m', Mirrors m' s → Mirrors m' s' := by
  have hm : Mirrors (runOn body m).2 s := by
    have hkept : KeptByReads fun m => Mirrors m s := keptByReads_of
      (fun m r st h => ⟨h.db, h.saved, fun w => by
        rw [setStatement_statements_ne (by simp), h.writes], h.reads⟩)
      fun m _ h => ⟨h.db, h.saved, h.writes, h.reads⟩
    have := h.keeps hkept m hs
    rcases hrun : runOn body m with ⟨e | a, m'⟩ <;> simpa only [hrun] using this
  refine ⟨hm, ?_⟩
  -- on the mirror nothing disturbs the read, and its statements stay unfailed
  have hcalm : Calm (s.withEnvironment []) := ⟨by simp [Undisturbed, withEnvironment], hs.reads⟩
  have hsame : KeptByReads fun t => t.db = s.db ∧ t.saved = s.saved ∧
      ∀ w, t.statements (.write w) = s.statements (.write w) := keptByReads_of
    (fun t r st h => ⟨h.1, h.2.1, fun w => by
      rw [setStatement_statements_ne (by simp), h.2.2]⟩) fun _ _ h => h
  rcases hrun : runOn body (s.withEnvironment []) with ⟨e | a, s'⟩
  · exact (h.calm.of_error hcalm hrun).elim
  · obtain ⟨hdb, hsaved, hwrites⟩ := (h.keeps hsame).of_ok (s := s.withEnvironment [])
      ⟨rfl, rfl, fun _ => rfl⟩ hrun
    have ha : a = answer m.db.tables := by
      rw [h.exact _ a s' hrun, ← hs.db]
      rfl
    exact ⟨s', by rw [ha], fun m' hm' => ⟨hdb.trans hm'.db, hsaved.trans hm'.saved,
      fun w => (hwrites w).trans (hm'.writes w), (h.calm.of_ok hcalm hrun).reads⟩⟩

end RecipesCore.Db
