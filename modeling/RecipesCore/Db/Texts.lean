import RecipesCore.Db.Calls
import RecipesCore.Logic.Simulation

/-!
# What the texts of exceptions do to the manager

Nothing: two managers that differ in the texts of failures only, of those that statements were left
with and of those to come, make the same of every operation. A part of an operation is *blind* when
it does not see such a difference.
-/

namespace RecipesCore.Db

open RecipesCore.Logic RecipesCore.Logic.Program
open RecipesCore.Sqlite
open RecipesCore.Types
open DBManager

/-- Whether SQLite goes on, and how, but not with what text it fails. -/
def StepOutcome.gap? : StepOutcome → Option Nat
  | .proceed gap => some gap
  | .fail _ => none

structure SameButTexts (m m' : DBManager) : Prop where
  db : m.db = m'.db
  saved : m.saved = m'.saved
  bindings : ∀ u, (m.statements u).bindings = (m'.statements u).bindings
  failures : ∀ u, (m.failureOf u).isSome = (m'.failureOf u).isSome
  environment : m.environment.map StepOutcome.gap? = m'.environment.map StepOutcome.gap?

def Blind {α : Type} (body : DbM α) : Prop := Similar SameButTexts Eq body body

namespace Blind

variable {α β : Type} {body : DbM α}

theorem pure (a : α) : Blind (Pure.pure a : DbM α) := Similar.pure rfl

theorem throw (e : DbException) : Blind (MonadExcept.throw e : DbM α) := Similar.throw

/-- Blind parts in a row are blind: the first hands the same value on. -/
theorem bind {k : α → DbM β} (h : Blind body) (hk : ∀ a, Blind (k a)) : Blind (body >>= k) :=
  Similar.bind h fun a _ heq => heq ▸ hk a

/-- What is made of the value does not matter. -/
theorem map (h : Blind body) (f : α → β) : Blind (f <$> body) :=
  Similar.map h fun _ _ heq => congrArg f heq

/-- A loop is blind when each of its rounds is. -/
theorem forM {xs : List β} {loop : β → DbM PUnit} (h : ∀ b, Blind (loop b)) :
    Blind (xs.forM loop) := Similar.forM fun b _ => h b

end Blind

/-! ## Primitive steps -/

section

variable {m m' : DBManager} {s : StatementId}

/-- A statement set alike, but for the text it failed with. -/
theorem SameButTexts.setStatement (h : SameButTexts m m') {st st' : Statement}
    (hbindings : st.bindings = st'.bindings)
    (hfailure : st.failure.isSome = st'.failure.isSome) :
    SameButTexts (m.setStatement s st) (m'.setStatement s st') where
  db := h.db
  saved := h.saved
  bindings u := by
    by_cases hu : u = s
    · rw [hu, setStatement_statements_self, setStatement_statements_self, hbindings]
    · rw [setStatement_statements_ne hu, setStatement_statements_ne hu, h.bindings u]
  failures u := by
    by_cases hu : u = s
    · rw [hu, failureOf, failureOf, setStatement_statements_self, setStatement_statements_self,
        hfailure]
    · rw [failureOf, failureOf, setStatement_statements_ne hu, setStatement_statements_ne hu]
      exact h.failures u
  environment := h.environment

/-- Any two failures of a statement leave the same but for the text. -/
theorem SameButTexts.recordFailure (h : SameButTexts m m') (exception exception' : SqliteException) :
    SameButTexts (m.recordFailure s exception) (m'.recordFailure s exception') :=
  h.setStatement (h.bindings s) rfl

/-- SQLite goes on with both or fails with both, in whatever words. -/
theorem SameButTexts.nextOutcome (h : SameButTexts m m') :
    (nextOutcome m.environment).1.gap? = (nextOutcome m'.environment).1.gap? ∧
      SameButTexts { m with environment := (nextOutcome m.environment).2 }
        { m' with environment := (nextOutcome m'.environment).2 } := by
  have henv := h.environment
  cases hm : m.environment with
  | nil =>
      cases hm' : m'.environment with
      | nil => exact ⟨rfl, h.db, h.saved, h.bindings, h.failures, rfl⟩
      | cons outcome' rest' => simp [hm, hm'] at henv
  | cons outcome rest =>
      cases hm' : m'.environment with
      | nil => simp [hm, hm'] at henv
      | cons outcome' rest' =>
          rw [hm, hm', List.map_cons, List.map_cons, List.cons.injEq] at henv
          exact ⟨henv.1, h.db, h.saved, h.bindings, h.failures, henv.2⟩

/-- A statement that was left failed throws on both sides, and can be used on both afterwards. -/
theorem prepare_blind {values : List Value} : Blind (prepare s values) := by
  intro m m' h
  rw [runOn_prepare, runOn_prepare]
  have hfailures := h.failures s
  cases hm : m.failureOf s <;> cases hm' : m'.failureOf s <;>
    simp only [hm, hm', Option.isSome_none, Option.isSome_some, reduceCtorEq] at hfailures
  · exact ⟨rfl, h.setStatement rfl rfl⟩
  · exact h.setStatement (h.bindings s) rfl

/-- A step leaves the same gap on both sides, or the statement failed on both. -/
theorem step_blind : Blind (step s) := by
  refine Similar.primitive fun m m' h => ?_
  obtain ⟨hgap, hrest⟩ := h.nextOutcome
  rcases hm : nextOutcome m.environment with ⟨_ | _, rest⟩ <;>
    rcases hm' : nextOutcome m'.environment with ⟨_ | _, rest'⟩ <;>
    simp only [hm, hm', StepOutcome.gap?, Option.some.injEq, reduceCtorEq] at hgap hrest
  · exact ⟨hgap, hrest⟩
  · exact hrest.recordFailure _ _

/-- What looks at the stored data only. -/
theorem look_blind {α : Type} {f : Database → α} :
    Blind (primitive fun m => (.ok (f m.db), m) : DbM α) :=
  Similar.primitive fun _ _ h => ⟨congrArg f h.db, h⟩

/-- `BEGIN` and `COMMIT`, which leave no statement failed. -/
theorem execDirect_blind {f : DBManager → DBManager}
    (hf : ∀ m m', SameButTexts m m' → SameButTexts (f m) (f m')) : Blind (execDirect f) := by
  refine Similar.primitive fun m m' h => ?_
  obtain ⟨hgap, hrest⟩ := h.nextOutcome
  rcases hm : nextOutcome m.environment with ⟨_ | _, rest⟩ <;>
    rcases hm' : nextOutcome m'.environment with ⟨_ | _, rest'⟩ <;>
    simp only [hm, hm', StepOutcome.gap?, Option.some.injEq, reduceCtorEq] at hgap hrest
  · exact ⟨rfl, hf _ _ hrest⟩
  · exact hrest

end

/-! ## Calls -/

section

variable {w : Write} {r : Read} {values : List Value}

/-- A writing statement has the same bindings and the same data on both sides. -/
theorem execBound_blind : Blind (execBound w values) := by
  refine prepare_blind.bind fun _ => step_blind.bind fun gap => ?_
  refine Similar.primitive fun m m' h => ?_
  rw [h.bindings, h.db]
  cases w.sql (m'.statements (.write w)).bindings gap m'.db with
  | ok db => exact ⟨rfl, rfl, h.saved, h.bindings, h.failures, h.environment⟩
  | error exception => exact h.recordFailure exception exception

theorem resultRows_blind : Blind (resultRows r) :=
  Similar.primitive fun m m' h => ⟨by rw [h.bindings, h.db], h⟩

theorem firstBound_blind : Blind (firstBound r values) :=
  prepare_blind.bind fun _ => step_blind.bind fun _ => resultRows_blind.bind fun _ => .pure _

/-- Row by row: both sides fail at the same row, or at none. -/
theorem stepThrough_blind {β : Type} (visit : β → Row → β) :
    ∀ (rows : List Row) (acc : β), Blind (stepThrough r visit acc rows)
  | [], _ => step_blind.bind fun _ => .pure _
  | row :: rest, acc => step_blind.bind fun _ => stepThrough_blind visit rest (visit acc row)

/-- A `SELECT` visits the same rows on both sides. -/
theorem queryBound_blind {β : Type} {visit : β → Row → β} {start : β} :
    Blind (queryBound r values visit start) :=
  prepare_blind.bind fun _ => resultRows_blind.bind fun rows => stepThrough_blind visit rows start

end

/-- A commit leaves no snapshot on either side. -/
theorem commit_blind : Blind commit :=
  execDirect_blind fun _ _ h => ⟨h.db, rfl, h.bindings, h.failures, h.environment⟩

/-- A transaction is blind when its block is: both sides roll back to the same data. -/
theorem transaction_blind {α : Type} {block : DbM α} (h : Blind block) :
    Blind (transaction block) := by
  refine (execDirect_blind fun _ _ h => ?_).bind fun _ => Similar.ensuring h fun m m' h => ?_
  · exact ⟨h.db, by rw [h.db], h.bindings, h.failures, h.environment⟩
  · unfold rollbackUnlessCommitted
    rw [h.saved]
    split
    · exact h
    · exact ⟨by rw [h.db], rfl, h.bindings, h.failures, h.environment⟩

/-! ## Operations -/

/-- The last line of an update or delete. -/
theorem changesIsOne_blind : Blind (do return (← getChanges) == 1) :=
  look_blind.bind fun _ => .pure _

theorem replaceRecipeIngredients_blind (recipeId : Int) (recipe : Recipe) :
    Blind (replaceRecipeIngredients recipeId recipe) := by
  rw [replaceRecipeIngredients_eq]
  refine execBound_blind.bind fun _ => Blind.forM fun ingredient => ?_
  rw [insertIngredient_eq]
  exact execBound_blind

/-- `InsertRecipe` also throws an error of its own, on both sides. -/
theorem insertRecipeBody_blind (recipe : Recipe) : Blind (insertRecipeBody recipe) := by
  refine execBound_blind.bind fun _ => firstBound_blind.bind fun row => ?_
  cases row with
  | none => exact .throw _
  | some row => exact replaceRecipeIngredients_blind _ recipe

/-- The grouping of rows looks at nothing but the rows. -/
theorem fetchRecipes_blind (r : Read) : Blind (fetchRecipes r none) := by
  rw [fetchRecipes_none_eq]
  exact queryBound_blind.bind fun _ => .pure _

/-- What a call of the manager returns. -/
abbrev Operation.Value : Operation → Type
  | .insertProduct _ | .insertProducts _ | .insertRecipe _ | .insertRecipes _ => Unit
  | .createProduct _ | .createRecipe _ => Int
  | .getProduct _ => Option Product
  | .getRecipe _ => Option Recipe
  | .updateProduct _ _ | .deleteProduct _ | .updateRecipe _ _ | .deleteRecipe _ => Bool
  | .getAllProducts | .getRecipeIngredients _ => List Product
  | .getAllRecipes | .getCookableRecipes => List Recipe

def Operation.perform : (operation : Operation) → DbM operation.Value
  | .insertProduct product => DBManager.insertProduct product
  | .insertProducts products => DBManager.insertProducts products
  | .createProduct product => DBManager.createProduct product
  | .getProduct productId => DBManager.getProduct productId
  | .updateProduct productId product => DBManager.updateProduct productId product
  | .deleteProduct productId => DBManager.deleteProduct productId
  | .insertRecipe recipe => DBManager.insertRecipe recipe
  | .insertRecipes recipes => DBManager.insertRecipes recipes
  | .createRecipe recipe => DBManager.createRecipe recipe
  | .getRecipe recipeId => DBManager.getRecipe recipeId
  | .updateRecipe recipeId recipe => DBManager.updateRecipe recipeId recipe
  | .deleteRecipe recipeId => DBManager.deleteRecipe recipeId
  | .getAllProducts => DBManager.getAllProducts
  | .getAllRecipes => DBManager.getAllRecipes
  | .getCookableRecipes => DBManager.getCookableRecipes
  | .getRecipeIngredients recipeId => DBManager.getRecipeIngredients recipeId

/-- **No operation of the manager sees the text of a failure.** -/
theorem perform_blind (operation : Operation) : Blind operation.perform := by
  cases operation with
  | insertProduct product =>
      rw [Operation.perform, insertProduct_eq]
      exact execBound_blind
  | insertProducts products =>
      refine transaction_blind ((Blind.forM fun product => ?_).bind fun _ => commit_blind)
      rw [insertProduct_eq]
      exact execBound_blind
  | createProduct product =>
      rw [Operation.perform, createProduct_eq]
      exact execBound_blind.bind fun _ => look_blind
  | getProduct productId =>
      rw [Operation.perform, getProduct_eq]
      exact firstBound_blind.bind fun _ => .pure _
  | updateProduct productId product =>
      rw [Operation.perform, updateProduct_eq]
      exact execBound_blind.bind fun _ => changesIsOne_blind
  | deleteProduct productId =>
      rw [Operation.perform, deleteProduct_eq]
      exact execBound_blind.bind fun _ => changesIsOne_blind
  | insertRecipe recipe =>
      rw [Operation.perform, insertRecipe_eq]
      exact transaction_blind ((insertRecipeBody_blind recipe).bind fun _ => commit_blind)
  | insertRecipes recipes =>
      rw [Operation.perform, insertRecipes_eq]
      exact transaction_blind ((Blind.forM insertRecipeBody_blind).bind fun _ => commit_blind)
  | createRecipe recipe =>
      rw [Operation.perform, createRecipe_eq]
      refine transaction_blind (execBound_blind.bind fun _ => look_blind.bind fun recipeId => ?_)
      refine (replaceRecipeIngredients_blind recipeId recipe).bind fun _ => ?_
      exact commit_blind.bind fun _ => .pure _
  | getRecipe recipeId =>
      rw [Operation.perform, getRecipe_eq]
      exact queryBound_blind.bind fun _ => .pure _
  | updateRecipe recipeId recipe =>
      rw [Operation.perform, updateRecipe_eq]
      refine transaction_blind (execBound_blind.bind fun _ => look_blind.bind fun changes => ?_)
      split
      · exact .pure _
      · refine (replaceRecipeIngredients_blind recipeId recipe).bind fun _ => ?_
        exact commit_blind.bind fun _ => .pure _
  | deleteRecipe recipeId =>
      rw [Operation.perform, deleteRecipe_eq]
      exact execBound_blind.bind fun _ => changesIsOne_blind
  | getAllProducts =>
      rw [Operation.perform, getAllProducts_eq]
      exact queryBound_blind
  | getAllRecipes => exact fetchRecipes_blind _
  | getCookableRecipes => exact fetchRecipes_blind _
  | getRecipeIngredients recipeId =>
      rw [Operation.perform, getRecipeIngredients_eq]
      exact queryBound_blind

end RecipesCore.Db
