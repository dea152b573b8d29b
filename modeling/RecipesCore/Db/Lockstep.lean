import RecipesCore.Db.ReadBack

/-!
# Runs that are given the same steps

What a part of an operation does depends on the data, the statements and the steps ahead, not on
what a rollback would restore. Where two managers agree on the data and the statements, and SQLite
gives them the same steps, they end the part alike (`EndAlike`), whatever comes behind these steps.
A part with a transaction of its own around it needs two more steps, one to begin and one to commit.
-/

namespace RecipesCore.Db

open RecipesCore.Logic RecipesCore.Logic.Program
open RecipesCore.Sqlite
open RecipesCore.Types
open DBManager

/-! ## Steps ahead -/

/-- The first `n` of the steps ahead; behind the end of the list every step goes on. -/
def stepsAhead : Nat → List StepOutcome → List StepOutcome
  | 0, _ => []
  | n + 1, environment => (nextOutcome environment).1 :: stepsAhead n (environment.drop 1)

/-- The first `n + k` steps are the first `n`, and `k` of those that are left. -/
theorem stepsAhead_add (n k : Nat) (environment : List StepOutcome) :
    stepsAhead (n + k) environment =
      stepsAhead n environment ++ stepsAhead k (environment.drop n) := by
  induction n generalizing environment with
  | zero => rw [Nat.zero_add, List.drop_zero, stepsAhead, List.nil_append]
  | succ n ih =>
      rw [Nat.succ_add, stepsAhead, stepsAhead, ih, List.drop_drop, List.cons_append,
        Nat.add_comm 1 n]

/-! ## Ending alike -/

/-- The same data, and statements in the same state. -/
structure Alike (m s : DBManager) : Prop where
  db : s.db = m.db
  statements : s.statements = m.statements

variable {α β : Type} {n k : Nat} {m s : DBManager} {rest rest' : List StepOutcome}

/-- Both throw the same, or both return the same and agree again; then `body` has used up `n` steps,
and `body'` has left `rest`. -/
def EndAlike (n : Nat) (rest : List StepOutcome) (body body' : DbM α) (m s : DBManager) : Prop :=
  (∃ e m' s', runOn body m = (.error e, m') ∧ runOn body' s = (.error e, s')) ∨
    ∃ a m' s', runOn body m = (.ok a, m') ∧ runOn body' s = (.ok a, s') ∧ Alike m' s' ∧
      m'.environment = m.environment.drop n ∧ s'.environment = rest

/-- What ends alike goes on alike, with the steps that each side has left. -/
theorem EndAlike.bind {body body' : DbM α} {next next' : α → DbM β}
    (h : EndAlike n rest body body' m s)
    (hnext : ∀ a m' s', Alike m' s' → m'.environment = m.environment.drop n →
      s'.environment = rest → EndAlike k rest' (next a) (next' a) m' s') :
    EndAlike (n + k) rest' (body >>= next) (body' >>= next') m s := by
  rcases h with ⟨e, m', s', hbody, hbody'⟩ | ⟨a, m', s', hbody, hbody', halike, henv, hrest⟩
  · exact Or.inl ⟨e, m', s', runOn_bind_error hbody, runOn_bind_error hbody'⟩
  · rw [EndAlike, runOn_bind_ok hbody, runOn_bind_ok hbody']
    rcases hnext a m' s' halike henv hrest with hthrow | ⟨b, m'', s'', hm, hs, halike', henv', hrest'⟩
    · exact Or.inl hthrow
    · refine Or.inr ⟨b, m'', s'', hm, hs, halike', ?_, hrest'⟩
      rw [henv', henv, List.drop_drop]

/-- Given the same `n` steps, the part ends alike. -/
def Lockstep (n : Nat) (body : DbM α) : Prop :=
  ∀ m s rest, Alike m s → s.environment = stepsAhead n m.environment ++ rest →
    EndAlike n rest body body m s

namespace Lockstep

variable {body : DbM α}

theorem pure {a : α} : Lockstep 0 (Pure.pure a : DbM α) :=
  fun m s _ h hs => Or.inr ⟨a, m, s, rfl, rfl, h, rfl, hs⟩

theorem throw {e : DbException} : Lockstep n (MonadExcept.throw e : DbM α) :=
  fun m s _ _ _ => Or.inl ⟨e, m, s, rfl, rfl⟩

theorem bind {next : α → DbM β} (h : Lockstep n body) (hnext : ∀ a, Lockstep k (next a)) :
    Lockstep (n + k) (body >>= next) := by
  intro m s rest halike hs
  rw [stepsAhead_add, List.append_assoc] at hs
  apply (h m s _ halike hs).bind
  intro a m' s' halike' henv hrest
  apply hnext a m' s' rest halike'
  rw [hrest, henv]

/-- A loop takes the steps of all its rounds. -/
theorem forM {xs : List α} {loop : α → DbM PUnit} {steps : α → Nat}
    (h : ∀ a, Lockstep (steps a) (loop a)) : Lockstep (xs.map steps).sum (xs.forM loop) := by
  induction xs with
  | nil => exact Lockstep.pure
  | cons a xs ih =>
      rw [List.forM_eq_forM, List.forM_cons, List.map_cons, List.sum_cons]
      exact (h a).bind fun _ => ih

end Lockstep

/-! ## Parts -/

section

variable {u : StatementId} {w : Write} {r : Read} {values : List Value}

/-- The same statement is set on both sides. -/
theorem Alike.setStatement (h : Alike m s) (statement : Statement) :
    Alike (m.setStatement u statement) (s.setStatement u statement) :=
  ⟨h.db, by rw [DBManager.setStatement, DBManager.setStatement, h.statements]⟩

/-- Preparing a statement takes no step. -/
theorem prepare_lockstep : Lockstep 0 (prepare u values) := by
  intro m s rest h hs
  have hfailure : s.failureOf u = m.failureOf u := by rw [failureOf, failureOf, h.statements]
  rw [EndAlike, runOn_prepare, runOn_prepare, hfailure]
  cases m.failureOf u with
  | some exception => exact Or.inl ⟨_, _, _, rfl, rfl⟩
  | none => exact Or.inr ⟨(), _, _, rfl, rfl, h.setStatement _, rfl, hs⟩

theorem step_lockstep : Lockstep 1 (step u) := by
  intro m s rest h hs
  have hs : nextOutcome s.environment = ((nextOutcome m.environment).1, rest) := by
    rw [hs]
    rfl
  rcases nextOutcome_cases m.environment with ⟨gap, rest', hm⟩ | ⟨exception, rest', hm⟩
  · rw [hm] at hs
    rw [EndAlike, runOn_step hm, runOn_step hs]
    exact Or.inr ⟨gap, _, _, rfl, rfl, ⟨h.db, h.statements⟩, nextOutcome_drop hm, rfl⟩
  · rw [hm] at hs
    rw [EndAlike, runOn_step_fail hm, runOn_step_fail hs]
    exact Or.inl ⟨_, _, _, rfl, rfl⟩

/-- A writing statement takes one step, whatever comes of it. -/
theorem execBound_lockstep : Lockstep 1 (execBound w values) := by
  apply prepare_lockstep.bind (k := 1)
  intro _
  apply step_lockstep.bind (k := 0)
  intro gap m s rest h hs
  rw [EndAlike, runOn_primitive, runOn_primitive]
  rw [h.db, congrFun h.statements (.write w)]
  cases w.sql (m.statements (.write w)).bindings gap m.db with
  | ok db => exact Or.inr ⟨(), _, _, rfl, rfl, ⟨rfl, h.statements⟩, rfl, hs⟩
  | error exception => exact Or.inl ⟨_, _, _, rfl, rfl⟩

/-- So does the first row of a `SELECT`. -/
theorem firstBound_lockstep : Lockstep 1 (firstBound r values) := by
  apply prepare_lockstep.bind (k := 1)
  intro _
  apply step_lockstep.bind (k := 0)
  intro _ m s rest h hs
  refine Or.inr ⟨(r.sql (m.statements (.read r)).bindings m.db.tables).head?, m, s, rfl, ?_, h, rfl,
    hs⟩
  rw [← h.db, ← h.statements]
  rfl

/-- **A transaction of its own** costs a part a step to begin and a step to commit. -/
theorem committed_alike {body : DbM Unit} (h : Lockstep n body) (halike : Alike m s)
    (hs : s.environment = .proceed 0 :: (stepsAhead n m.environment ++ .proceed 0 :: rest)) :
    EndAlike n rest body (transaction (do body; commit)) m s := by
  let begun : DBManager :=
    { s with environment := stepsAhead n m.environment ++ .proceed 0 :: rest
             saved := some (s.db.tables, s.db.sequences) }
  have hbegin : runOn beginTransaction s = (.ok (), begun) := by
    rw [beginTransaction, execDirect, runOn_primitive, hs]
    rfl
  rw [EndAlike, transaction, runOn_bind_ok hbegin, runOn_ensuring]
  have hbegun : Alike m begun := ⟨halike.db, halike.statements⟩
  -- the body sees the same tables and steps on both sides, whatever transaction it is in
  rcases h m begun _ hbegun rfl with
    ⟨e, m', s', hm, hs'⟩ | ⟨⟨⟩, m', s', hm, hs', halike', henv, hrest⟩
  · rw [runOn_bind_error hs']
    exact Or.inl ⟨e, _, _, hm, rfl⟩
  · have hcommit : runOn commit s' = (.ok (), { s' with environment := rest, saved := none }) := by
      rw [commit, execDirect, runOn_primitive, hrest]
      rfl
    rw [runOn_bind_ok hs', hcommit]
    exact Or.inr ⟨(), m', _, hm, rfl, ⟨halike'.db, halike'.statements⟩, henv, rfl⟩

end

/-! ## Inserts -/

/-- The steps of the body of an insert. -/
def insertSteps (recipe : Recipe) : Nat := 3 + recipe.ingredients.length

theorem insertRecipeBody_lockstep (recipe : Recipe) :
    Lockstep (insertSteps recipe) (insertRecipeBody recipe) := by
  have hinsert : ∀ recipeId ingredient, Lockstep 1 (insertIngredient recipeId ingredient) := by
    intro recipeId ingredient
    rw [insertIngredient_eq]
    exact execBound_lockstep
  have hreplace : ∀ recipeId, Lockstep (1 + (recipe.ingredients.map fun _ => 1).sum)
      (replaceRecipeIngredients recipeId recipe) := by
    intro recipeId
    rw [replaceRecipeIngredients_eq]
    exact execBound_lockstep.bind fun _ => Lockstep.forM (hinsert recipeId)
  have hsteps : insertSteps recipe = 1 + (1 + (1 + (recipe.ingredients.map fun _ => 1).sum)) := by
    rw [insertSteps, List.map_const', List.sum_replicate_nat]
    omega
  rw [hsteps]
  apply execBound_lockstep.bind
  intro _
  apply firstBound_lockstep.bind
  intro row
  cases row with
  | none => exact Lockstep.throw
  | some row => exact hreplace (getColumn row 0).getInt64

/-- The steps of a list of inserts with one transaction around them. -/
def inOneTransaction (recipes : List Recipe) (steps : List StepOutcome) : List StepOutcome :=
  .proceed 0 :: (stepsAhead (recipes.map insertSteps).sum steps ++ [.proceed 0])

/-- The same steps with a transaction around each insert. -/
def inTransactions : List Recipe → List StepOutcome → List StepOutcome
  | [], _ => []
  | recipe :: rest, steps =>
      .proceed 0 :: (stepsAhead (insertSteps recipe) steps ++
        .proceed 0 :: inTransactions rest (steps.drop (insertSteps recipe)))

/-- All recipes in one transaction end as the recipes without any. -/
theorem insertRecipes_alike (recipes : List Recipe) (halike : Alike m s)
    (hs : s.environment = inOneTransaction recipes m.environment) :
    EndAlike (recipes.map insertSteps).sum [] (recipes.forM insertRecipeBody)
      (insertRecipes recipes) m s := by
  rw [insertRecipes_eq]
  exact committed_alike (Lockstep.forM insertRecipeBody_lockstep) halike hs

/-- So do the recipes in a transaction each. -/
theorem forM_insertRecipe_alike (recipes : List Recipe) (halike : Alike m s)
    (hs : s.environment = inTransactions recipes m.environment) :
    EndAlike (recipes.map insertSteps).sum [] (recipes.forM insertRecipeBody)
      (recipes.forM insertRecipe) m s := by
  induction recipes generalizing m s with
  | nil => exact Or.inr ⟨(), m, s, rfl, rfl, halike, rfl, hs⟩
  | cons recipe recipes ih =>
      rw [List.forM_eq_forM, List.forM_cons, List.forM_cons, List.map_cons, List.sum_cons,
        insertRecipe_eq]
      apply (committed_alike (insertRecipeBody_lockstep recipe) halike hs).bind
      intro _ m' s' halike' henv hrest
      apply ih halike'
      rw [hrest, henv]

end RecipesCore.Db
