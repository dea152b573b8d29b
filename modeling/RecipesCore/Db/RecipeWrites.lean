import RecipesCore.Db.Frames
import RecipesCore.Db.Ingredients
import RecipesCore.Db.Messages

/-!
# What a recipe write leaves

A create, an update and an insert reach the ingredients of a recipe on three paths: by the rowid of
the insert, by the id that was passed in, and by looking the name up again. On each of them the
recipe holds its name under the id whose ingredients are replaced (`Written`). The insert does not
know the id, but the name it has just inserted is there, so the look-up finds it.
-/

namespace RecipesCore.Db

open RecipesCore.Logic RecipesCore.Logic.Program
open RecipesCore.Relational
open RecipesCore.Sqlite
open RecipesCore.Types
open RecipesCore.Types.PreparedStatements
open DBManager

/-! ## Replacing the ingredients -/

/-- All recipes stay, and the ingredients of all others than this one. -/
structure SameBeside (recipeId : Int) (before after : Tables) : Prop where
  recipes : after.recipes = before.recipes
  ingredients : ∀ i : IngredientRow, i.recipeId ≠ recipeId →
    (i ∈ after.recipeIngredients ↔ i ∈ before.recipeIngredients)

/-- The recipe is there under the id, with what it lists. -/
structure Written (recipe : Recipe) (recipeId : Int) (tables : Tables) : Prop where
  holdsName : HoldsName tables recipeId recipe.name
  filled : Filled recipeId recipe.ingredients tables

section

variable {recipe : Recipe} {recipeId : Int} {before : Tables}

theorem Written.hasRecipe {tables : Tables} (h : Written recipe recipeId tables) :
    HasRecipe recipeId tables := ⟨_, h.holdsName, rfl⟩

theorem SameBeside.clear {gap : Nat} {db db' : Database} (h : SameBeside recipeId before db.tables)
    (hsql : Write.deleteRecipeIngredientsByRecipeId.sql (params [.integer recipeId]) gap db =
      .ok db') : SameBeside recipeId before db'.tables where
  recipes := (holdsName_ingredients (Or.inl ⟨rfl, rfl⟩) hsql).trans h.recipes
  ingredients := by
    intro i hi
    rw [deleteRecipeIngredients_effect.mp hsql, ← h.ingredients i hi]
    exact mem_deleteWhere.trans (and_iff_left (decide_eq_false hi))

theorem SameBeside.fill {gap : Nat} {db db' : Database} {ingredient : Product}
    (h : SameBeside recipeId before db.tables)
    (hsql : Write.insertRecipeIngredient.sql (params (ingredientValues recipeId ingredient)) gap db
      = .ok db') : SameBeside recipeId before db'.tables where
  recipes := (holdsName_ingredients (Or.inr ⟨rfl, ingredient, rfl⟩) hsql).trans h.recipes
  ingredients := by
    intro i hi
    rw [← h.ingredients i hi]
    have hkey : i.key ≠ (recipeId, productKey ingredient) := fun hkey => hi (congrArg Prod.fst hkey)
    obtain ⟨-, ⟨-, heq⟩ | ⟨-, -, heq⟩⟩ := insertRecipeIngredient_effect.mp hsql
    · rw [heq]
      constructor
      · intro hmem
        rcases mem_updateWhere.mp hmem with ⟨hmem, -⟩ | ⟨old, -, hold, rfl⟩
        · exact hmem
        · exact absurd (of_decide_eq_true hold) hkey
      · intro hmem
        exact mem_updateWhere.mpr (Or.inl ⟨hmem, decide_eq_false hkey⟩)
    · rw [heq]
      have hne : i ≠ ingredientRow (nextRowid db.tables.recipeIngredients) recipeId ingredient := by
        intro hnew
        exact hi (congrArg IngredientRow.recipeId hnew)
      simp [hne]

theorem replaceRecipeIngredients_beside (recipe : Recipe) (recipeId : Int) (before : Tables) :
    Keeps (fun m => SameBeside recipeId before m.db.tables)
      (replaceRecipeIngredients recipeId recipe) := by
  have hkeeps : Keeps (With (fun tables _ => SameBeside recipeId before tables) fun _ => True)
      (replaceRecipeIngredients recipeId recipe) :=
    replaceRecipeIngredients_with (C := fun _ => True) (fun _ _ _ _ h hsql => h.clear hsql)
      (fun _ _ _ _ _ _ h hsql => h.fill hsql) fun _ => trivial
  exact hkeeps.conseq (fun _ h => ⟨h, trivial⟩) (fun _ _ h => h.1) (fun _ _ h => h.1)

/-- **What the replacement of a recipe's ingredients leaves**, where the recipe holds its name. -/
theorem replaceRecipeIngredients_written (recipe : Recipe) (recipeId : Int) (before : Tables) :
    Triple (fun m => m.db.tables = before ∧ HoldsName before recipeId recipe.name)
      (replaceRecipeIngredients recipeId recipe)
      (fun _ m => Written recipe recipeId m.db.tables ∧ SameBeside recipeId before m.db.tables)
      (fun _ _ => True) := by
  have hboth := (replaceRecipeIngredients_beside recipe recipeId before).and
    (@replaceRecipeIngredients_filled recipeId recipe)
  apply Triple.of_each
  intro m hm
  obtain ⟨rfl, hname⟩ := hm
  apply hboth.conseq
  · intro s hs
    rw [hs]
    exact ⟨⟨rfl, fun _ _ => Iff.rfl⟩, trivial⟩
  · intro _ s hs
    refine ⟨⟨?_, hs.2⟩, hs.1⟩
    rw [HoldsName, hs.1.recipes]
    exact hname
  · exact fun _ _ _ => trivial

/-! ## Creates and updates -/

/-- The same, said of whatever tables it starts from. -/
theorem replaceRecipeIngredients_held :
    Triple (fun m => HoldsName m.db.tables recipeId recipe.name)
      (replaceRecipeIngredients recipeId recipe) (fun _ m => Written recipe recipeId m.db.tables)
      (fun _ _ => True) := by
  apply Triple.of_each
  intro m hm
  apply (replaceRecipeIngredients_written recipe recipeId m.db.tables).conseq
  · intro s hs
    rw [hs]
    exact ⟨rfl, hm⟩
  · exact fun _ _ h => h.1
  · exact fun _ _ h => h

theorem createRecipe_written :
    Triple (fun _ => True) (createRecipe recipe)
      (fun recipeId m => Written recipe recipeId m.db.tables) (fun _ _ => True) := by
  rw [createRecipe_eq]
  apply transaction_commits
  -- the rowid is read before anything else is inserted
  apply Triple.bind (Q := fun _ m => HoldsName m.db.tables m.db.lastInsertRowid recipe.name)
  · refine (execBound_triple (J := fun _ _ => True)).conseq (fun _ h => h) ?_ (fun _ _ h => h)
    intro _ m hm
    obtain ⟨gap, db, -, hsql⟩ := hm
    exact createRecipe_holds hsql
  · intro _
    refine Triple.bind (Q := fun recipeId (m : DBManager) =>
      HoldsName m.db.tables recipeId recipe.name) (fun _ hm => hm) fun recipeId => ?_
    exact replaceRecipeIngredients_held.bind fun _ => commit_tables.bind fun _ =>
      Triple.pure fun _ hm => Or.inl hm

theorem updateRecipe_written :
    Triple (fun _ => True) (updateRecipe recipeId recipe)
      (fun updated m => updated = true → Written recipe recipeId m.db.tables)
      (fun _ _ => True) := by
  rw [updateRecipe_eq]
  apply transaction_commits (Q := fun updated tables =>
    updated = true → Written recipe recipeId tables)
  -- one changed row is the recipe under its new name
  apply Triple.bind (Q := fun _ m => m.db.changes = 1 →
    HoldsName m.db.tables recipeId recipe.name)
  · refine (execBound_triple (J := fun _ _ => True)).conseq (fun _ h => h) ?_ (fun _ _ h => h)
    intro _ m hm
    obtain ⟨gap, db, -, hsql⟩ := hm
    exact updateRecipeName_holds hsql
  · intro _
    refine Triple.bind (Q := fun changes (m : DBManager) => changes = 1 →
      HoldsName m.db.tables recipeId recipe.name) (fun _ hm => hm) fun changes => ?_
    split
    · exact Triple.pure fun _ _ => Or.inr fun _ hfalse => by cases hfalse
    · next hone =>
        have hone : changes = 1 := by simpa using hone
        apply Triple.bind (replaceRecipeIngredients_held.conseq (fun _ hm => hm hone)
          (fun _ _ h => h) (fun _ _ h => h))
        intro _
        exact commit_tables.bind fun _ => Triple.pure fun _ hm => Or.inl ⟨fun _ => hm.1, hm.2⟩

end

/-! ## Inserts -/

/-- What `INSERT OR IGNORE` leaves: the name is there, in a new row if it was not. -/
structure NameInserted (name : String) (before after : Tables) : Prop where
  recipes : after.recipes = before.recipes ∨
    ∃ row : RecipeRow, row.name = name ∧ after.recipes = before.recipes ++ [row]
  ingredients : after.recipeIngredients = before.recipeIngredients
  present : ∃ recipeId, HoldsName after recipeId name

/-- What an insert leaves: the name, and its recipe filled in; everything else stays. -/
structure RecipeInserted (recipe : Recipe) (before after : Tables) : Prop where
  recipes : after.recipes = before.recipes ∨
    ∃ row : RecipeRow, row.name = recipe.name ∧ after.recipes = before.recipes ++ [row]
  written : ∃ recipeId, Written recipe recipeId after ∧ ∀ i : IngredientRow, i.recipeId ≠ recipeId →
    (i ∈ after.recipeIngredients ↔ i ∈ before.recipeIngredients)

section

variable {recipe : Recipe} {recipeId : Int} {name : String} {before : Tables} {P : String → Prop}

theorem insertRecipeIfAbsent_inserts {gap : Nat} {db db' : Database}
    (hsql : Write.insertRecipeIfAbsent.sql (params [.text name]) gap db = .ok db') :
    NameInserted name db.tables db'.tables := by
  obtain ⟨id, -, ⟨⟨other, hother, rfl⟩, heq⟩ | ⟨-, heq⟩⟩ := insertRecipeIfAbsent_effect.mp hsql
  · rw [heq]
    exact ⟨Or.inl rfl, rfl, other.id, hother⟩
  · rw [heq]
    exact ⟨Or.inr ⟨_, rfl, rfl⟩, rfl, id, List.mem_append_right _ (List.mem_singleton_self _)⟩

/-- A name that is there is found. -/
theorem selectRecipeIdByName_finds {tables : Tables} (h : HoldsName tables recipeId name) :
    (Read.selectRecipeIdByName.sql (params [.text name]) tables).head? ≠ none := by
  intro hnone
  have hp1 : params [.text name] 1 = .text name := rfl
  simp only [Read.sql, kSelectRecipeIdByName, hp1, List.head?_eq_none_iff, List.map_eq_nil_iff,
    List.filter_eq_nil_iff] at hnone
  exact hnone _ h (by simp)

/-- **The body of an insert**: its look-up finds the name, so it throws nothing but what SQLite
raises. -/
theorem insertRecipeBody_inserts (hP : ∀ exception ∈ constraintErrors, P exception.what) :
    Triple (fun m => m.db.tables = before ∧ Saying P m) (insertRecipeBody recipe)
      (fun _ m => RecipeInserted recipe before m.db.tables ∧ Saying P m)
      (fun e m => Saying P m ∧ Thrown P e) := by
  have hinsert : Triple (fun m => m.db.tables = before ∧ Saying P m)
      (execBound .insertRecipeIfAbsent [.text recipe.name])
      (fun _ m => NameInserted recipe.name before m.db.tables ∧ Saying P m)
      (fun e m => Saying P m ∧ Thrown P e) := by
    apply ((execBound_triple (J := fun db _ => db.tables = before)).and
      (execBound_speaks hP)).conseq (fun _ h => h)
    · intro _ m hm
      obtain ⟨⟨gap, db, rfl, hsql⟩, hsaying⟩ := hm
      exact ⟨insertRecipeIfAbsent_inserts hsql, hsaying⟩
    · exact fun _ _ hm => hm.2
  apply hinsert.bind
  intro _
  have hlook : Triple (fun m => NameInserted recipe.name before m.db.tables ∧ Saying P m)
      (firstBound .selectRecipeIdByName [.text recipe.name])
      (fun row m => (NameInserted recipe.name before m.db.tables ∧
        row = (Read.selectRecipeIdByName.sql (params [.text recipe.name]) m.db.tables).head?) ∧
        Saying P m) (fun e m => Saying P m ∧ Thrown P e) :=
    ((firstBound_triple (J := fun db _ => NameInserted recipe.name before db.tables)).and
      firstBound_speaks).conseq (fun _ h => h) (fun _ _ h => h) (fun _ _ h => h.2)
  apply hlook.bind
  intro row
  apply Triple.of_each
  intro m hm
  obtain ⟨⟨hname, hrow⟩, hsaying⟩ := hm
  cases row with
  | none =>
      -- the name was inserted or was there already
      obtain ⟨recipeId, hheld⟩ := hname.present
      exact absurd hrow.symm (selectRecipeIdByName_finds hheld)
  | some row =>
      have hheld := selectRecipeIdByName_holds hrow.symm
      have hreplace := (replaceRecipeIngredients_written recipe (getColumn row 0).getInt64
        m.db.tables).and (replaceRecipeIngredients_speaks hP)
      apply hreplace.conseq
      · intro s hs
        rw [hs]
        exact ⟨⟨rfl, hheld⟩, hsaying⟩
      · intro _ s hs
        obtain ⟨⟨hwritten, hbeside⟩, hsaying⟩ := hs
        refine ⟨⟨?_, _, hwritten, fun i hi => ?_⟩, hsaying⟩
        · rw [hbeside.recipes]
          exact hname.recipes
        · rw [hbeside.ingredients i hi, hname.ingredients]
      · exact fun _ _ h => h.2

/-- An insert that returns. -/
theorem insertRecipe_inserts :
    Triple (fun m => m.db.tables = before) (insertRecipe recipe)
      (fun _ m => RecipeInserted recipe before m.db.tables) (fun _ _ => True) := by
  rw [insertRecipe_eq]
  apply transaction_commits_from (P := fun db => db.tables = before)
    (Q := fun _ tables => RecipeInserted recipe before tables)
  have hbody : Triple (fun m => m.db.tables = before) (insertRecipeBody recipe)
      (fun _ m => RecipeInserted recipe before m.db.tables) (fun _ _ => True) :=
    (insertRecipeBody_inserts (P := fun _ => True) fun _ _ => trivial).conseq
      (fun _ hm => ⟨hm, fun _ _ => trivial, fun _ _ _ => trivial⟩) (fun _ _ h => h.1)
      (fun _ _ _ => trivial)
  apply hbody.bind
  intro _
  exact (commit_tables (Q := RecipeInserted recipe before)).conseq (fun _ h => h)
    (fun _ _ h => Or.inl h) (fun _ _ h => h)

theorem insertRecipeBody_speaks (hP : ∀ exception ∈ constraintErrors, P exception.what) :
    Speaks P (insertRecipeBody recipe) := by
  apply Triple.of_each
  intro m hm
  apply (@insertRecipeBody_inserts recipe m.db.tables P hP).conseq
  · intro s hs
    rw [hs]
    exact ⟨rfl, hm⟩
  · exact fun _ _ h => h.2
  · exact fun _ _ h => h

/-- Inserts throw nothing of their own. -/
theorem insertRecipe_speaks (hP : ∀ exception ∈ constraintErrors, P exception.what) :
    Speaks P (insertRecipe recipe) := by
  rw [insertRecipe_eq]
  apply transaction_speaks
  exact (insertRecipeBody_speaks hP).bind fun _ => commit_speaks

theorem insertRecipes_speaks (hP : ∀ exception ∈ constraintErrors, P exception.what)
    (recipes : List Recipe) : Speaks P (insertRecipes recipes) := by
  rw [insertRecipes_eq]
  apply transaction_speaks
  exact (Speaks.forM fun _ => insertRecipeBody_speaks hP).bind fun _ => commit_speaks

end

end RecipesCore.Db
