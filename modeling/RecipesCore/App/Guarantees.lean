import RecipesCore.App.Runs
import RecipesCore.Db.Atomic
import RecipesCore.Db.Calm
import RecipesCore.Db.Failures
import RecipesCore.Db.Frames
import RecipesCore.Db.Readers

/-!
# What a reachable manager guarantees

The results about single operations, for every state a run can reach.
-/

namespace RecipesCore.App

open RecipesCore.Db RecipesCore.Db.DBManager
open RecipesCore.Logic RecipesCore.Logic.Program
open RecipesCore.Sqlite
open RecipesCore.Types

/-! ## Atomic writes -/

/-- A failure leaves the tables of a valid store as they were. -/
theorem failed_unchanged {m : DBManager} (hvalid : Store.Valid m.db.tables m.db.sequences)
    (op : Operation) (hop : op.mutates = true) (environment : List StepOutcome)
    (hfail : (runOn op.run (m.withEnvironment environment)).1 = .ok (.bool false) ∨
      ∃ e, (runOn op.run (m.withEnvironment environment)).1 = .error e) :
    (runOn op.run (m.withEnvironment environment)).2.db.tables = m.db.tables := by
  have hatomic := op.run_atomic hop m.db.tables m.db.sequences
  have hpre := And.intro hvalid
    (And.intro (Eq.refl m.db.tables) (Eq.refl m.db.sequences))
  rcases hrun : runOn op.run (m.withEnvironment environment) with ⟨result, t⟩
  rw [hrun] at hfail
  rcases hfail with rfl | ⟨e, rfl⟩
  · exact hatomic.of_ok (s := m.withEnvironment environment) hpre hrun rfl
  · exact hatomic.of_error (s := m.withEnvironment environment) hpre hrun

/-- **A mutating operation that throws, or an update or delete that returns `false`, leaves the
three tables as they were**, wherever SQLite fails. -/
theorem mutating_operation_atomic {m : DBManager} (h : managerRuns.Reachable m) (op : Operation)
    (hop : op.mutates = true) (environment : List StepOutcome)
    (hfail : (runOn op.run (m.withEnvironment environment)).1 = .ok (.bool false) ∨
      ∃ e, (runOn op.run (m.withEnvironment environment)).1 = .error e) :
    (runOn op.run (m.withEnvironment environment)).2.db.tables = m.db.tables := by
  obtain ⟨hvalid, -⟩ := rests_valid h
  exact failed_unchanged hvalid op hop environment hfail

/-- The second of two recipes in a batch has an ingredient with a negative amount: nothing of the
first is left. -/
theorem mutating_operation_atomic_kitchen :
    (runOn (Operation.insertRecipes [{ name := "tea" }, { name := "soup", ingredients :=
      [{ name := "salt", amount := -1, dimension := .gramm }] }]).run
      ((afterCalls kitchenCalls).withEnvironment [])).2.db.tables =
      (afterCalls kitchenCalls).db.tables :=
  mutating_operation_atomic (reachable_afterCalls kitchenCalls) _ (by decide) []
    (Or.inr ⟨.sqlite (PreparedStatements.checkFailed "required_amount_base >= 0"),
      by decide +kernel⟩)

/-! ## Updates, deletes and frames -/

/-- An operation's result and effect, as far as its target and the tables of its kind go. -/
structure ExactAndLocal (op : Operation) (before : Tables)
    (result : Except DbException Returned) (after : Tables) : Prop where
  returns : ∀ target, op.target = some target → ∀ r, result = .ok r →
    ∃ b, r = .bool b ∧ (b = true ↔ target.Stored before)
  elsewhere : ∀ target, op.target = some target → target.SameElsewhere before after
  leavesNone : ∀ recipeId, op = .deleteRecipe recipeId → ∀ r, result = .ok r →
    ∀ i ∈ after.recipeIngredients, i.recipeId ≠ recipeId
  otherTables : OtherTables op.onProducts before after

/-- **Updates and deletes are exact and local.** They return whether their id was stored and change
nothing outside its rows, a deleted recipe leaves no ingredient, and no operation writes to the
tables of the other kind. -/
theorem writes_exact_and_local {m : DBManager} (h : managerRuns.Reachable m) (op : Operation)
    (environment : List StepOutcome) :
    ExactAndLocal op m.db.tables (runOn op.run (m.withEnvironment environment)).1
      (runOn op.run (m.withEnvironment environment)).2.db.tables := by
  have hrest := rests_valid h
  have hpre := And.intro hrest.1 (And.intro (Eq.refl m.db.tables) (Eq.refl m.db.sequences))
  refine ⟨fun target htarget r hr => ?_, fun target htarget => ?_, ?_, ?_⟩
  · exact (op.run_exact htarget).of_ok (s := m.withEnvironment environment) hpre (Prod.ext hr rfl)
  · exact ((op.run_sameElsewhere htarget m.db.tables).after (s := m.withEnvironment environment)
      ⟨Target.SameElsewhere.refl _ _, hrest.2⟩).1
  · rintro recipeId rfl r hr
    exact (Operation.run_leavesNone recipeId).of_ok (s := m.withEnvironment environment) hpre
      (Prod.ext hr rfl)
  · exact ((op.run_otherTables m.db.tables).after (s := m.withEnvironment environment)
      ⟨OtherTables.refl _ _, hrest.2⟩).1

/-- Deleting the pancakes takes their two ingredients along and leaves the water. -/
theorem writes_exact_and_local_kitchen :
    (runOn (Operation.deleteRecipe 1).run ((afterCalls kitchenCalls).withEnvironment [])).1 =
        .ok (.bool true) ∧
      ExactAndLocal (.deleteRecipe 1) (afterCalls kitchenCalls).db.tables
        (runOn (Operation.deleteRecipe 1).run ((afterCalls kitchenCalls).withEnvironment [])).1
        (runOn (Operation.deleteRecipe 1).run
          ((afterCalls kitchenCalls).withEnvironment [])).2.db.tables :=
  ⟨by decide +kernel, writes_exact_and_local (reachable_afterCalls kitchenCalls) _ []⟩

/-! ## Operations after failures -/

/-- **What succeeds on a fresh manager over the same tables succeeds here, with the same result and
effect, exactly when no statement the operation resets was left failed by its last step.** -/
theorem succeeds_as_fresh_iff {m : DBManager} (h : managerRuns.Reachable m) (op : Operation)
    (environment : List StepOutcome) (r : Returned)
    (hfresh : (runOn op.run
      ((onTables m.db.tables m.db.sequences).withEnvironment environment)).1 = .ok r) :
    ((runOn op.run (m.withEnvironment environment)).1 = .ok r ∧
      (runOn op.run (m.withEnvironment environment)).2.db.tables =
        (runOn op.run ((onTables m.db.tables m.db.sequences).withEnvironment
          environment)).2.db.tables ∧
      (runOn op.run (m.withEnvironment environment)).2.db.sequences =
        (runOn op.run ((onTables m.db.tables m.db.sequences).withEnvironment
          environment)).2.db.sequences) ↔
    ∀ u ∈ op.uses m.db.tables, m.failureOf u = none := by
  have hiff := op.succeeds_iff (rests_valid h).1 (rests_valid h).2 (Prod.ext hfresh rfl)
  rw [← hiff]
  constructor
  · rintro ⟨hr, htables, hsequences⟩
    exact ⟨_, Prod.ext hr rfl, htables, hsequences⟩
  · rintro ⟨t, ht, htables, hsequences⟩
    rw [ht]
    exact ⟨rfl, htables, hsequences⟩

/-- Storing milk twice fails, as it should; storing rice then fails as well. -/
def conflictCalls : List Call :=
  let milk : Product := { name := "milk", amount := 500, dimension := .milliliter }
  [.operation [] (.createProduct milk), .operation [] (.createProduct milk)]

theorem createProduct_fails_after_conflict :
    managerRuns.Reachable (afterCalls conflictCalls) ∧
      (runOn (createProduct { name := "rice", amount := 1, dimension := .kilogramm })
        (onTables (afterCalls conflictCalls).db.tables (afterCalls conflictCalls).db.sequences)).1 =
        .ok 2 ∧
      (runOn (createProduct { name := "rice", amount := 1, dimension := .kilogramm })
        (afterCalls conflictCalls)).1 =
        .error (.sqlite (PreparedStatements.uniqueFailed "products.name, products.dimension")) :=
  ⟨reachable_afterCalls conflictCalls, by decide +kernel, by decide +kernel⟩

theorem succeeds_as_fresh_kitchen :
    (runOn (Operation.deleteRecipe 1).run ((afterCalls kitchenCalls).withEnvironment [])).1 =
        .ok (.bool true) ∧
      (runOn (Operation.deleteRecipe 1).run
        ((afterCalls kitchenCalls).withEnvironment [])).2.db.tables =
        (runOn (Operation.deleteRecipe 1).run ((onTables (afterCalls kitchenCalls).db.tables
          (afterCalls kitchenCalls).db.sequences).withEnvironment [])).2.db.tables ∧
      (runOn (Operation.deleteRecipe 1).run
        ((afterCalls kitchenCalls).withEnvironment [])).2.db.sequences =
        (runOn (Operation.deleteRecipe 1).run ((onTables (afterCalls kitchenCalls).db.tables
          (afterCalls kitchenCalls).db.sequences).withEnvironment [])).2.db.sequences :=
  (succeeds_as_fresh_iff (reachable_afterCalls kitchenCalls) (.deleteRecipe 1) [] (.bool true)
    (by decide +kernel)).mpr (by decide +kernel)

/-! ## Exact reads -/

/-- The runs in which SQLite never fails on its own; constraints may still be broken. -/
def calmRuns : System DBManager Call :=
  managerRuns.restrict fun _ call => Undisturbed call.environment

theorem reads_never_failed {m : DBManager} (h : calmRuns.Reachable m) :
    ∀ r, m.failureOf (.read r) = none := by
  refine h.invariant (I := fun m => ∀ r, m.failureOf (.read r) = none) ?_ ?_
  · rintro m rfl r
    rfl
  · rintro m call _ hreads ⟨henv, rfl⟩
    exact (Call.after_keeps calm_kept call.admitted_all ⟨henv, hreads⟩).reads

/-- A reading operation answers `a`: it never returns anything else, and it does return when SQLite
does not fail during the call and never did before. -/
structure Answers {α : Type} (m : DBManager) (body : DbM α) (a : α) : Prop where
  exact : ∀ environment b t, runOn body (m.withEnvironment environment) = (.ok b, t) → b = a
  returns : calmRuns.Reachable m → ∀ environment, Undisturbed environment →
    ∃ t, runOn body (m.withEnvironment environment) = (.ok a, t)

theorem queryBound_answers {β : Type} (m : DBManager) (r : Read) (values : List Value)
    (visit : β → Row → β) (start : β) :
    Answers m (queryBound r values visit start)
      ((r.sql (params values) m.db.tables).foldl visit start) := by
  have hexact : ∀ environment b t, runOn (queryBound r values visit start)
      (m.withEnvironment environment) = (.ok b, t) →
      b = (r.sql (params values) m.db.tables).foldl visit start := by
    intro environment b t hrun
    obtain ⟨htables, hb⟩ := (queryBound_triple (J := fun db _ => db.tables = m.db.tables)
      visit start).of_ok (s := m.withEnvironment environment) rfl hrun
    rw [hb, htables]
  refine ⟨hexact, fun hrun environment henv => ?_⟩
  have hreads : ∀ r, m.failureOf (.read r) = none := reads_never_failed hrun
  have hcalm : Calm (m.withEnvironment environment) := ⟨henv, hreads⟩
  rcases hq : runOn (queryBound r values visit start) (m.withEnvironment environment)
    with ⟨e | b, t⟩
  · exact (queryBound_calm.of_error hcalm hq).elim
  · exact ⟨t, by rw [hexact environment b t hq]⟩

theorem Answers.map {α β : Type} {m : DBManager} {body : DbM α} {a : α} (h : Answers m body a)
    (f : α → β) : Answers m (do let x ← body; return f x) (f a) where
  exact environment b t hrun := by
    obtain ⟨x, u, hx, hu⟩ := runOn_bind_eq_ok hrun
    rw [← h.exact environment x u hx]
    simp only [runOn_pure, Prod.mk.injEq, Except.ok.injEq] at hu
    exact hu.1.symm
  returns hrun environment henv := by
    obtain ⟨t, ht⟩ := h.returns hrun environment henv
    exact ⟨t, by rw [runOn_bind_ok ht, runOn_pure]⟩

section

variable {m : DBManager}

theorem getAllRecipes_answers (hv : Store.Valid m.db.tables m.db.sequences) :
    Answers m getAllRecipes (storedRecipes m.db.tables) := by
  rw [getAllRecipes, fetchRecipes_none_eq, ← selectAllRecipes_fetch hv (params [])]
  exact (queryBound_answers m .selectAllRecipesWithIngredients [] fetchRow {}).map
    Fetching.recipes

theorem getCookableRecipes_answers (hv : Store.Valid m.db.tables m.db.sequences) :
    Answers m getCookableRecipes
      ((storedRecipes m.db.tables).filter (cookable m.db.tables)) := by
  rw [getCookableRecipes, fetchRecipes_none_eq, ← selectCookableRecipes_fetch hv (params [])]
  exact (queryBound_answers m .selectCookableRecipesWithIngredients [] fetchRow {}).map
    Fetching.recipes

theorem getRecipe_answers (hv : Store.Valid m.db.tables m.db.sequences) (recipeId : Int) :
    Answers m (getRecipe recipeId) (findRecipe (storedRecipes m.db.tables) recipeId) := by
  rw [getRecipe_eq, ← selectRecipeById_fetch hv]
  exact (queryBound_answers m .selectRecipeByIdWithIngredients [.integer recipeId] fetchRow {}).map
    fun fetching => fetching.recipes.head?

theorem getRecipeIngredients_answers (hv : Store.Valid m.db.tables m.db.sequences)
    (recipeId : Int) : Answers m (getRecipeIngredients recipeId)
      (((findRecipe (storedRecipes m.db.tables) recipeId).map fun r => r.ingredients).getD []) := by
  rw [getRecipeIngredients_eq, ← storedIngredients_eq_findRecipe hv,
    ← selectRecipeIngredients_fold]
  exact queryBound_answers m .selectRecipeIngredientsByRecipeId [.integer recipeId] _ []

/-- **The recipe readers are exact and agree.** One list says what the tables say; `GetAllRecipes`
answers it, `GetRecipe` its element with the given id and `GetRecipeIngredients` that element's
ingredients. -/
theorem recipe_readers_exact (h : managerRuns.Reachable m) :
    ∃ recipes, Lists m.db.tables recipes ∧
      Answers m getAllRecipes recipes ∧
      (∀ recipeId, Answers m (getRecipe recipeId) (findRecipe recipes recipeId)) ∧
      ∀ recipeId, Answers m (getRecipeIngredients recipeId)
        (((findRecipe recipes recipeId).map fun r => r.ingredients).getD []) := by
  have hv := (rests_valid h).1
  exact ⟨storedRecipes m.db.tables, storedRecipes_lists hv, getAllRecipes_answers hv,
    getRecipe_answers hv, getRecipeIngredients_answers hv⟩

theorem recipe_readers_exact_kitchen :
    ∃ recipes, Lists (afterCalls kitchenCalls).db.tables recipes ∧
      Answers (afterCalls kitchenCalls) getAllRecipes recipes ∧
      (∀ recipeId, Answers (afterCalls kitchenCalls) (getRecipe recipeId)
        (findRecipe recipes recipeId)) ∧
      ∀ recipeId, Answers (afterCalls kitchenCalls) (getRecipeIngredients recipeId)
        (((findRecipe recipes recipeId).map fun r => r.ingredients).getD []) :=
  recipe_readers_exact (reachable_afterCalls kitchenCalls)

/-- **The cookable recipes are all recipes, filtered**: the same recipes in the same order, those
for whose every stored ingredient there is a product of its name and dimension and enough of it. -/
theorem cookable_recipes_are_filtered (h : managerRuns.Reachable m) :
    ∃ recipes, Answers m getAllRecipes recipes ∧
      Answers m getCookableRecipes (recipes.filter (cookable m.db.tables)) ∧
      (∀ recipe ∈ recipes, recipe.ingredients = [] → cookable m.db.tables recipe = true) ∧
      ∀ recipe ∈ recipes, ∀ ingredient ∈ recipe.ingredients,
        (∀ p ∈ m.db.tables.products, p.name = ingredient.name →
          p.dimension ≠ ingredient.dimension.code) → cookable m.db.tables recipe = false := by
  have hv := (rests_valid h).1
  exact ⟨storedRecipes m.db.tables, getAllRecipes_answers hv, getCookableRecipes_answers hv,
    fun _ hmem hnil => cookable_of_no_ingredients hmem hnil,
    fun _ hmem _ hin hmissing => not_cookable_of_missing hv hmem hin hmissing⟩

theorem cookable_recipes_are_filtered_kitchen :
    ∃ recipes, Answers (afterCalls kitchenCalls) getAllRecipes recipes ∧
      Answers (afterCalls kitchenCalls) getCookableRecipes
        (recipes.filter (cookable (afterCalls kitchenCalls).db.tables)) ∧
      (∀ recipe ∈ recipes, recipe.ingredients = [] →
        cookable (afterCalls kitchenCalls).db.tables recipe = true) ∧
      ∀ recipe ∈ recipes, ∀ ingredient ∈ recipe.ingredients,
        (∀ p ∈ (afterCalls kitchenCalls).db.tables.products, p.name = ingredient.name →
          p.dimension ≠ ingredient.dimension.code) →
        cookable (afterCalls kitchenCalls).db.tables recipe = false :=
  cookable_recipes_are_filtered (reachable_afterCalls kitchenCalls)

end

end RecipesCore.App
