import RecipesCore.App.Submissions
import RecipesCore.Db.Mirror

/-!
# Recipes are stored in canonical form

Whatever list of ingredients a recipe is written with, it is read back sorted by name and dimension,
with one ingredient for each of these and the amount listed last. The ways out that the code keeps
for a row that has vanished are never taken.
-/

namespace RecipesCore.App

open RecipesCore.Db RecipesCore.Db.DBManager
open RecipesCore.Logic RecipesCore.Logic.Program
open RecipesCore.Relational
open RecipesCore.Sqlite
open RecipesCore.Types

/-! ## Canonical form -/

/-- `ingredients` are what `listed` says, without repetitions and in order. -/
structure Canonical (listed ingredients : List Product) : Prop where
  increasing : ingredients.Pairwise fun a b => toLex (productKey a) < toLex (productKey b)
  /-- Each ingredient is listed last of its name and dimension, and each such listing is one. -/
  mem_iff : ∀ ingredient, ingredient ∈ ingredients ↔
    ∃ earlier last later, listed = earlier ++ last :: later ∧
      (∀ other ∈ later, productKey other ≠ productKey last) ∧
      ingredient = { name := last.name, amount := last.amount, dimension := last.dimension }

section

variable {tables : Tables} {sequences : Sequences} {recipeId : Int} {listed : List Product}

/-- A row with a product's key and amount is handed out as the product. -/
theorem storedIngredient_of_key {row : IngredientRow} {last : Product}
    (hkey : row.key = (recipeId, productKey last))
    (hamount : row.requiredAmountBase = last.amount.toInt) : storedIngredient row =
      { name := last.name, amount := last.amount, dimension := last.dimension } := by
  obtain ⟨-, hrest⟩ := Prod.mk.inj hkey
  obtain ⟨hname, hdimension⟩ := Prod.mk.inj hrest
  have hcode : Dimension.ofCode (Int32.ofInt last.dimension.code).toInt = last.dimension :=
    Dimension.ofCode_stored _
  simp only [storedIngredient, hname, hdimension, hcode, hamount, Int32.ofInt_toInt]

/-- **What a filled recipe is read back as.** -/
theorem canonical_storedIngredients (hv : Store.Valid tables sequences)
    (h : Filled recipeId listed tables) : Canonical listed (storedIngredients tables recipeId) where
  increasing := by
    have hrows : ∀ row ∈ tables.recipeIngredients.filter fun row => decide (row.recipeId = recipeId),
        row.key = (recipeId, row.productName, row.dimension) := by
      intro row hrow
      rw [IngredientRow.key, of_decide_eq_true (List.mem_filter.mp hrow).2]
    have hkeys : ((tables.recipeIngredients.filter fun row => decide (row.recipeId = recipeId)).map
        fun row => toLex (row.productName, row.dimension)).Nodup := by
      have hnodup := (List.pairwise_map.mp hv.ingredientKeys).filter
        fun row => decide (row.recipeId = recipeId)
      apply List.pairwise_map.mpr
      apply hnodup.imp_of_mem
      intro a b ha hb hne heq
      rw [hrows a ha, hrows b hb] at hne
      exact hne (congrArg (Prod.mk recipeId) (toLex_inj.mp heq))
    apply List.pairwise_map.mpr
    apply (orderBy_pairwise_lt _ hkeys).imp_of_mem
    intro a b ha hb hlt
    rw [mem_orderBy] at ha hb
    rwa [productKey_storedIngredient hv (List.mem_filter.mp ha).1,
      productKey_storedIngredient hv (List.mem_filter.mp hb).1]
  mem_iff := by
    intro ingredient
    rw [mem_storedIngredients]
    constructor
    -- the row of a key has the amount of its last ingredient in the list
    · rintro ⟨row, hrow, rfl, rfl⟩
      have hlast := (h (row.productName, row.dimension) row.requiredAmountBase).mp
        ⟨row, hrow, rfl, rfl⟩
      rw [lastAmount_eq_lastListed, Option.map_eq_some_iff] at hlast
      obtain ⟨last, hlast, hamount⟩ := hlast
      obtain ⟨earlier, later, hsplit, hlater⟩ := lastListed_split hlast
      have hkey := (lastListed_mem hlast).2
      refine ⟨earlier, last, later, hsplit, ?_, ?_⟩
      · rw [hkey]
        exact hlater
      · exact storedIngredient_of_key (congrArg (Prod.mk row.recipeId) hkey.symm) hamount.symm
    · rintro ⟨earlier, last, later, rfl, hlater, rfl⟩
      have hlast : lastAmount (earlier ++ last :: later) (productKey last) =
          some last.amount.toInt := by
        rw [lastAmount_eq_lastListed, lastListed_of_last hlater, Option.map_some]
      obtain ⟨row, hrow, hkey, hamount⟩ := (h _ _).mpr hlast
      exact ⟨row, hrow, congrArg Prod.fst hkey, storedIngredient_of_key hkey hamount⟩

end

/-! ## Writes -/

/-- A recipe write that succeeds, and the id of the recipe it wrote. -/
inductive WritesRecipe (recipe : Recipe) (m : DBManager) : Int → DBManager → Prop where
  | create {environment : List StepOutcome} {recipeId : Int} {m' : DBManager} :
      runOn (createRecipe recipe) (m.withEnvironment environment) = (.ok recipeId, m') →
      WritesRecipe recipe m recipeId m'
  | update {environment : List StepOutcome} {recipeId : Int} {m' : DBManager} :
      runOn (updateRecipe recipeId recipe) (m.withEnvironment environment) = (.ok true, m') →
      WritesRecipe recipe m recipeId m'
  /-- The id is the one stored under the recipe's name. -/
  | insert {environment : List StepOutcome} {recipeId : Int} {m' : DBManager} :
      runOn (insertRecipe recipe) (m.withEnvironment environment) = (.ok (), m') →
      HoldsName m'.db.tables recipeId recipe.name → WritesRecipe recipe m recipeId m'

section

variable {m m' : DBManager} {recipe : Recipe} {recipeId recipeId' : Int} {tables : Tables}
  {sequences : Sequences}

/-- A name is held under one id. -/
theorem holdsName_unique (hv : Store.Valid tables sequences) {name : String}
    (h : HoldsName tables recipeId name) (h' : HoldsName tables recipeId' name) :
    recipeId = recipeId' :=
  congrArg RecipeRow.id (List.inj_on_of_nodup_map hv.recipeNames h h' rfl)

theorem WritesRecipe.written (hrest : Rests Store.Valid m)
    (h : WritesRecipe recipe m recipeId m') :
    Store.Valid m'.db.tables m'.db.sequences ∧ Written recipe recipeId m'.db.tables := by
  have hkept := rests_kept (Store.closed_valid {})
  cases h with
  | @create environment _ _ hrun =>
      exact ⟨((createRecipe_keeps hkept (Recipe.admitted_all recipe)).of_ok
        (s := m.withEnvironment environment) hrest hrun).1, createRecipe_written.of_ok trivial hrun⟩
  | @update environment _ _ hrun =>
      exact ⟨((updateRecipe_keeps hkept (Recipe.admitted_all recipe)).of_ok
        (s := m.withEnvironment environment) hrest hrun).1,
        updateRecipe_written.of_ok trivial hrun rfl⟩
  | @insert environment _ _ hrun hname =>
      have hv := ((insertRecipe_keeps hkept (Recipe.admitted_all recipe)).of_ok
        (s := m.withEnvironment environment) hrest hrun).1
      obtain ⟨id, hwritten, -⟩ := (insertRecipe_inserts.of_ok (s := m.withEnvironment environment)
        (rfl : _ = m.db.tables) hrun).written
      obtain rfl := holdsName_unique hv hname hwritten.holdsName
      exact ⟨hv, hwritten⟩

theorem getRecipe_reads (hv : Store.Valid tables sequences) {name : String}
    (h : HoldsName tables recipeId name) : Reads tables (getRecipe recipeId)
      (some { name, ingredients := storedIngredients tables recipeId, id := some recipeId }) := by
  have hread := (getRecipe_readsAs recipeId).reads tables
  have hfetch := selectRecipeById_fetch hv recipeId
  have hfound := findRecipe_stored hv h
  rwa [Read.sql, hfetch, hfound] at hread

end

/-! ## Rows that do not vanish -/

/-- The texts for a row that was just created and is not there. -/
def notFoundTexts : List String := ["Created product was not found", "Created recipe was not found"]

/-- SQLite itself does not fail with one of these texts. -/
def NeverSays (texts : List String) (environment : List StepOutcome) : Prop :=
  ∀ exception, .fail exception ∈ environment → exception.what ∉ texts

section

variable {m m' : DBManager} {environment : List StepOutcome} {error : Error}

theorem constraints_never_say : ∀ exception ∈ constraintErrors, exception.what ∉ notFoundTexts := by
  decide

/-- In a run where SQLite does not say them, no statement holds one of the texts. -/
theorem saying_of_reachable
    (h : (managerRuns.restrict fun _ call => NeverSays notFoundTexts call.environment).Reachable m)
    (henvironment : NeverSays notFoundTexts environment) :
    Saying (fun text => text ∉ notFoundTexts) (m.withEnvironment environment) := by
  have hheld : Saying (fun text => text ∉ notFoundTexts) (m.withEnvironment []) := by
    apply h.invariant
    · rintro m rfl
      exact ⟨nofun, nofun⟩
    · rintro m call _ hm ⟨htext, rfl⟩
      have hafter := call.after_keeps
        (saying_kept (P := fun text => text ∉ notFoundTexts) constraints_never_say)
        call.admitted_all ⟨htext, hm.held⟩
      exact ⟨nofun, hafter.held⟩
  exact ⟨henvironment, hheld.held⟩

/-- A create that finds what it created ends only in errors that were thrown to it. -/
theorem createThenGet_speaks {α β : Type} {P : String → Prop} {create : DbM β}
    {get : β → DbM (Option α)} {message : String} (hcreate : Speaks P create)
    (hget : ∀ id, Speaks P (get id)) (hm : Saying P m)
    (hfound : ∀ id m₁ m₂, runOn create m = (.ok id, m₁) → runOn (get id) m₁ ≠ (.ok none, m₂))
    (h : runOn (createThenGet create get message) m = (.ok (.error error), m')) :
    P error.message := by
  rw [createThenGet, runOn_guarded] at h
  rcases hrun : runOn create m with ⟨e | id, m₁⟩
  · rw [runOn_bind_error hrun] at h
    cases h
    obtain ⟨-, exception, rfl, htext⟩ := hcreate.of_error hm hrun
    exact htext
  · have hm₁ := hcreate.of_ok hm hrun
    rcases hread : runOn (get id) m₁ with ⟨e | found, m₂⟩
    · rw [runOn_bind_ok hrun, runOn_bind_error hread] at h
      cases h
      obtain ⟨-, exception, rfl, htext⟩ := (hget id).of_error hm₁ hread
      exact htext
    · cases found with
      | none => exact absurd hread (hfound id m₁ m₂ hrun)
      | some found =>
          rw [runOn_bind_ok hrun, runOn_bind_ok hread] at h
          cases h

theorem createProduct_texts_known {product : Product}
    (hm : Saying (fun text => text ∉ notFoundTexts) m)
    (h : runOn (sqliteRecipeRepository.createProduct product) m = (.ok (.error error), m')) :
    error.message ∉ notFoundTexts := by
  rw [createProduct_eq_createThenGet] at h
  apply createThenGet_speaks (createProduct_speaks constraints_never_say) (fun _ => getProduct_speaks) hm
    _ h
  intro productId m₁ m₂ hcreate hget
  have hrow : ∃ row ∈ m₁.db.tables.products, row.id = productId := by
    refine ⟨productRow productId product, ?_, rfl⟩
    rw [(createProduct_stored hcreate).1]
    exact List.mem_append_right _ (List.mem_singleton_self _)
  obtain ⟨created, hcreated⟩ := findProduct_ne_none hrow
  have hnone := (getProduct_exact hget).1
  rw [hcreated] at hnone
  cases hnone

theorem createRecipe_texts_known {recipe : Recipe}
    (hm : Saying (fun text => text ∉ notFoundTexts) m) (hrest : Rests Store.Valid m)
    (h : runOn (sqliteRecipeRepository.createRecipe recipe) m = (.ok (.error error), m')) :
    error.message ∉ notFoundTexts := by
  rw [createRecipe_eq_createThenGet] at h
  apply createThenGet_speaks (createRecipe_speaks constraints_never_say) (fun _ => getRecipe_speaks) hm
    _ h
  intro recipeId m₁ m₂ hcreate hget
  have hv := ((createRecipe_keeps (rests_kept (Store.closed_valid _))
    (Recipe.admitted_all recipe)).of_ok hrest hcreate).1
  have hread := (getRecipe_reads hv (createRecipe_written.of_ok trivial hcreate).holdsName).exact
    m₁ none m₂ rfl hget
  cases hread

/-- **Recipes are stored in canonical form, and what was just inserted is always found.**

* A create, update or insert that succeeds leaves the recipe under its name, with one ingredient for
  each name and dimension that is listed, and with nothing else.
* No insert loses the id of the recipe it has just inserted.
* No create over the repository misses what it has just created, unless SQLite itself fails with the
  very text. -/
theorem recipe_writes_canonical :
    (∀ m, managerRuns.Reachable m → ∀ recipe recipeId m', WritesRecipe recipe m recipeId m' →
      ∃ ingredients, Reads m'.db.tables (getRecipe recipeId)
          (some { name := recipe.name, ingredients, id := some recipeId }) ∧
        Canonical recipe.ingredients ingredients) ∧
    (∀ m, managerRuns.Reachable m → ∀ environment e m',
      (∀ recipe, runOn (insertRecipe recipe) (m.withEnvironment environment) = (.error e, m') →
        e ≠ .runtimeError "Failed to retrieve recipe id after insert") ∧
      ∀ recipes, runOn (insertRecipes recipes) (m.withEnvironment environment) = (.error e, m') →
        e ≠ .runtimeError "Failed to retrieve recipe id after insert") ∧
    ∀ m, (managerRuns.restrict fun _ call =>
        NeverSays notFoundTexts call.environment).Reachable m →
      ∀ environment error m', NeverSays notFoundTexts environment →
        (∀ product, runOn (sqliteRecipeRepository.createProduct product)
          (m.withEnvironment environment) = (.ok (.error error), m') →
          error.message ≠ "Created product was not found") ∧
        ∀ recipe, runOn (sqliteRecipeRepository.createRecipe recipe)
          (m.withEnvironment environment) = (.ok (.error error), m') →
          error.message ≠ "Created recipe was not found" := by
  refine ⟨?_, ?_, ?_⟩
  · intro m hreach recipe recipeId m' hwrites
    obtain ⟨hv, hwritten⟩ := hwrites.written (rests_valid hreach)
    exact ⟨_, getRecipe_reads hv hwritten.holdsName,
      canonical_storedIngredients hv hwritten.filled⟩
  · intro m _ environment e m'
    have hsaying : Saying (fun _ => True) (m.withEnvironment environment) :=
      ⟨fun _ _ => trivial, fun _ _ _ => trivial⟩
    constructor
    · intro recipe hrun
      obtain ⟨-, exception, rfl, -⟩ :=
        (insertRecipe_speaks fun _ _ => trivial).of_error hsaying hrun
      nofun
    · intro recipes hrun
      obtain ⟨-, exception, rfl, -⟩ :=
        (insertRecipes_speaks (fun _ _ => trivial) recipes).of_error hsaying hrun
      nofun
  · intro m hreach environment error m' henvironment
    have hsaying := saying_of_reachable hreach henvironment
    have hrest : Rests Store.Valid m := rests_of_reachable (Store.closed_valid _) Store.valid_empty
      (fun _ call _ => call.admitted_all) hreach
    constructor
    · intro product hrun htext
      exact createProduct_texts_known hsaying hrun (by rw [htext]; decide)
    · intro recipe hrun htext
      exact createRecipe_texts_known hsaying hrest hrun (by rw [htext]; decide)

end

/-- Pancakes with the flour listed twice. -/
def pancakes : Recipe :=
  { name := "pancakes"
    ingredients := [{ name := "flour", amount := 100, dimension := .gramm },
      { name := "eggs", amount := 2, dimension := .piece },
      { name := "flour", amount := 250, dimension := .gramm }] }

/-- The kitchen after its recipe for pancakes was inserted anew. -/
def afterPancakes : DBManager :=
  (runOn (insertRecipe pancakes) ((afterCalls kitchenCalls).withEnvironment [])).2

theorem recipe_writes_canonical_pancakes : ∃ ingredients,
    Reads afterPancakes.db.tables (getRecipe 1)
        (some { name := "pancakes", ingredients, id := some 1 }) ∧
      Canonical pancakes.ingredients ingredients := by
  have hrun : (runOn (insertRecipe pancakes) ((afterCalls kitchenCalls).withEnvironment [])).1 =
      .ok () := by decide +kernel
  have hafter : runOn (insertRecipe pancakes) ((afterCalls kitchenCalls).withEnvironment []) =
      (.ok (), afterPancakes) := by
    rw [afterPancakes, ← hrun]
  have hname : HoldsName afterPancakes.db.tables 1 "pancakes" := by
    unfold HoldsName
    decide +kernel
  exact recipe_writes_canonical.1 _ (reachable_afterCalls kitchenCalls) pancakes 1 _
    (.insert hafter hname)

end RecipesCore.App
