import RecipesCore.App.Guarantees
import RecipesCore.Db.Batches

/-!
# A batch of recipes and its recipes one by one

`InsertRecipes` repeats the body of `InsertRecipe` inside one transaction. Given the same steps, both
ways succeed together and leave the same database; given any steps, they leave the same recipes up to
the ids of the new ones.
-/

namespace RecipesCore.App

open RecipesCore.Db RecipesCore.Db.DBManager
open RecipesCore.Logic RecipesCore.Logic.Program
open RecipesCore.Types

section

variable {m m₁ m₂ : DBManager} {environment environment' : List StepOutcome}
  {recipes : List Recipe}

/-- Ends that are both like a third are alike. -/
theorem succeeds_iff_of_endAlike {n : Nat} {rest rest' : List StepOutcome} {s₁ s₂ : DBManager}
    {body body₁ body₂ : DbM Unit} (h₁ : EndAlike n rest body body₁ m s₁)
    (h₂ : EndAlike n rest' body body₂ m s₂) :
    ((∃ m₁, runOn body₁ s₁ = (.ok (), m₁)) ↔ ∃ m₂, runOn body₂ s₂ = (.ok (), m₂)) ∧
      ∀ m₁ m₂, runOn body₁ s₁ = (.ok (), m₁) → runOn body₂ s₂ = (.ok (), m₂) → m₂.db = m₁.db := by
  rcases h₁ with ⟨e, m', s', hbody, hrun₁⟩ | ⟨⟨⟩, m', s', hbody, hrun₁, halike₁, -, -⟩
  · rcases h₂ with ⟨e', m'', s'', -, hrun₂⟩ | ⟨⟨⟩, m'', s'', hbody', -⟩
    · rw [hrun₁, hrun₂]
      simp
    · rw [hbody] at hbody'
      cases hbody'
  · rcases h₂ with ⟨e', m'', s'', hbody', -⟩ | ⟨⟨⟩, m'', s'', hbody', hrun₂, halike₂, -, -⟩
    · rw [hbody] at hbody'
      cases hbody'
    · rw [hbody] at hbody'
      cases hbody'
      refine ⟨⟨fun _ => ⟨s'', hrun₂⟩, fun _ => ⟨s', hrun₁⟩⟩, ?_⟩
      intro m₁ m₂ hm₁ hm₂
      rw [hrun₁] at hm₁
      rw [hrun₂] at hm₂
      cases hm₁
      cases hm₂
      rw [halike₁.db, halike₂.db]

/-- Where SQLite goes on in the same way, both succeed or none does. -/
theorem insertRecipes_lockstep (m : DBManager) (recipes : List Recipe)
    (steps : List StepOutcome) :
    ((∃ m₁, runOn (insertRecipes recipes)
          (m.withEnvironment (inOneTransaction recipes steps)) = (.ok (), m₁)) ↔
        ∃ m₂, runOn (recipes.forM insertRecipe)
          (m.withEnvironment (inTransactions recipes steps)) = (.ok (), m₂)) ∧
      ∀ m₁ m₂, runOn (insertRecipes recipes)
          (m.withEnvironment (inOneTransaction recipes steps)) = (.ok (), m₁) →
        runOn (recipes.forM insertRecipe)
          (m.withEnvironment (inTransactions recipes steps)) = (.ok (), m₂) → m₂.db = m₁.db := by
  have halike : ∀ environment, Alike (m.withEnvironment steps) (m.withEnvironment environment) :=
    fun _ => ⟨rfl, rfl⟩
  exact succeeds_iff_of_endAlike (insertRecipes_alike recipes (halike _) rfl)
    (forM_insertRecipe_alike recipes (halike _) rfl)

/-- What a batch that returns has inserted. -/
theorem insertRecipes_leaves (hrest : Rests Store.Valid m)
    (hrun : runOn (insertRecipes recipes) (m.withEnvironment environment) = (.ok (), m₁)) :
    Rests Store.Valid m₁ ∧ RecipesInserted m.db.tables recipes m₁.db.tables := by
  have hkeeps : Keeps (Rests Store.Valid) (insertRecipes recipes) :=
    insertRecipes_keeps (rests_kept (Store.closed_valid {}))
      fun recipe _ => Recipe.admitted_all recipe
  exact ⟨hkeeps.of_ok (s := m.withEnvironment environment) hrest hrun,
    (insertRecipes_inserted recipes).of_ok (s := m.withEnvironment environment)
      ⟨hrest.1, rfl⟩ hrun⟩

/-- **The recipes of a batch, again**: whether this returns or not, every row is as it was. -/
theorem insertRecipes_again (h : managerRuns.Reachable m)
    (hrun : runOn (insertRecipes recipes) (m.withEnvironment environment) = (.ok (), m₁)) :
    SameRows m₁.db.tables
      (runOn (insertRecipes recipes) (m₁.withEnvironment environment')).2.db.tables := by
  obtain ⟨hrest, hinserted⟩ := insertRecipes_leaves (rests_valid h) hrun
  have hreach : managerRuns.Reachable m₁ := by
    have := reachable_operation h environment (.insertRecipes recipes)
    rwa [Operation.run, runOn_bind_ok hrun] at this
  rcases hagain : runOn (insertRecipes recipes) (m₁.withEnvironment environment')
    with ⟨e | ⟨⟩, m₂⟩
  · have hfail : runOn (Operation.insertRecipes recipes).run (m₁.withEnvironment environment') =
        (.error e, m₂) := by
      rw [Operation.run, runOn_bind_error hagain]
    have hsame := failed_unchanged (rests_valid hreach).1 (.insertRecipes recipes) rfl
      environment' (Or.inr ⟨e, by rw [hfail]⟩)
    rw [hfail] at hsame
    show SameRows m₁.db.tables m₂.db.tables
    rw [hsame]
    exact ⟨rfl, rfl, List.Perm.refl _⟩
  · obtain ⟨hrest', hinserted'⟩ := insertRecipes_leaves hrest hagain
    apply hinserted.again hinserted' hrest.1 hrest'.1
    have hother := ((Operation.insertRecipes recipes).run_otherTables m₁.db.tables).of_ok
      (s := m₁.withEnvironment environment') ⟨OtherTables.refl _ _, hrest.2⟩
      (show runOn (Operation.insertRecipes recipes).run (m₁.withEnvironment environment') =
        (.ok .unit, m₂) by rw [Operation.run, runOn_bind_ok hagain, runOn_pure])
    exact hother.1

/-- **`InsertRecipes` agrees with repeated `InsertRecipe`.** If SQLite treats the statements that both
issue alike, and begins and commits, both succeed or none does, and then they leave the same
database. However SQLite treats them, if both succeed they leave the same recipes, where those that
were there keep their ids. And the batch once more changes no row. -/
theorem insertRecipes_agrees (h : managerRuns.Reachable m) (recipes : List Recipe) :
    (∀ steps,
      ((∃ m₁, runOn (insertRecipes recipes)
            (m.withEnvironment (inOneTransaction recipes steps)) = (.ok (), m₁)) ↔
          ∃ m₂, runOn (recipes.forM insertRecipe)
            (m.withEnvironment (inTransactions recipes steps)) = (.ok (), m₂)) ∧
        ∀ m₁ m₂, runOn (insertRecipes recipes)
            (m.withEnvironment (inOneTransaction recipes steps)) = (.ok (), m₁) →
          runOn (recipes.forM insertRecipe)
            (m.withEnvironment (inTransactions recipes steps)) = (.ok (), m₂) → m₂.db = m₁.db) ∧
    (∀ environment environment' m₁ m₂,
      runOn (insertRecipes recipes) (m.withEnvironment environment) = (.ok (), m₁) →
      runOn (recipes.forM insertRecipe) (m.withEnvironment environment') = (.ok (), m₂) →
      SameRecipes m.db.tables m₁.db.tables m₂.db.tables) ∧
    ∀ environment environment' m₁,
      runOn (insertRecipes recipes) (m.withEnvironment environment) = (.ok (), m₁) →
      SameRows m₁.db.tables
        (runOn (insertRecipes recipes) (m₁.withEnvironment environment')).2.db.tables := by
  have hrest := rests_valid h
  refine ⟨insertRecipes_lockstep m recipes, ?_, fun _ _ _ hrun => insertRecipes_again h hrun⟩
  intro environment environment' m₁ m₂ hbatch hsingle
  obtain ⟨hrest₂, hinserted₂⟩ := (forM_insertRecipe_inserted recipes).of_ok
    (s := m.withEnvironment environment') ⟨hrest, (rfl : _ = m.db.tables)⟩ hsingle
  exact (insertRecipes_leaves hrest hbatch).2.sameRecipes hinserted₂ hrest₂.1

end

/-- Soup twice, and new pancakes. -/
def cookbook : List Recipe :=
  [{ name := "soup", ingredients := [{ name := "water", amount := 1, dimension := .liter }] },
    { name := "pancakes", ingredients := [{ name := "eggs", amount := 2, dimension := .piece }] },
    { name := "soup", ingredients := [{ name := "leek", amount := 1, dimension := .piece }] }]

/-- The kitchen with the cookbook. -/
def afterCookbook : DBManager :=
  (runOn (insertRecipes cookbook)
    ((afterCalls kitchenCalls).withEnvironment (inOneTransaction cookbook []))).2

theorem insertRecipes_agrees_cookbook :
    (∃ m₂, runOn (cookbook.forM insertRecipe)
        ((afterCalls kitchenCalls).withEnvironment (inTransactions cookbook [])) = (.ok (), m₂) ∧
      m₂.db = afterCookbook.db ∧
      SameRecipes (afterCalls kitchenCalls).db.tables afterCookbook.db.tables m₂.db.tables) ∧
      SameRows afterCookbook.db.tables
        (runOn (insertRecipes cookbook) (afterCookbook.withEnvironment [])).2.db.tables := by
  have hrun : (runOn (insertRecipes cookbook)
      ((afterCalls kitchenCalls).withEnvironment (inOneTransaction cookbook []))).1 = .ok () := by
    decide +kernel
  have hafter : runOn (insertRecipes cookbook)
      ((afterCalls kitchenCalls).withEnvironment (inOneTransaction cookbook [])) =
      (.ok (), afterCookbook) := by
    rw [afterCookbook, ← hrun]
  have h := insertRecipes_agrees (reachable_afterCalls kitchenCalls) cookbook
  obtain ⟨m₂, hsingle⟩ := (h.1 []).1.mp ⟨_, hafter⟩
  exact ⟨⟨m₂, hsingle, (h.1 []).2 _ _ hafter hsingle, h.2.1 _ _ _ _ hafter hsingle⟩,
    h.2.2 _ [] _ hafter⟩

end RecipesCore.App
