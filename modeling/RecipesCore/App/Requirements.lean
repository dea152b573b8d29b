import RecipesCore.App.Submissions
import RecipesCore.Db.Mirror

/-!
# What an accepted recipe requires

The service accepts a recipe whatever keys its ingredients repeat. What is read back then requires,
of each product and dimension, the amount listed last: nothing is lost exactly when every listing
that a later one overwrites asks for nothing.
-/

namespace RecipesCore.App

open RecipesCore.Db RecipesCore.Db.DBManager
open RecipesCore.Logic RecipesCore.Logic.Program
open RecipesCore.Relational
open RecipesCore.Sqlite
open RecipesCore.Types

/-- The service accepts `recipe`, and stores it under an id. -/
inductive Accepted (recipe : Recipe) (m : DBManager) : Int → DBManager → Prop where
  | create {environment : List StepOutcome} {created : Recipe} {recipeId : Int} {m' : DBManager} :
      (ServiceOperation.createRecipe recipe).call environment m = (.ok created, m') →
      created.id = some recipeId → Accepted recipe m recipeId m'
  | update {environment : List StepOutcome} {recipeId : Int} {m' : DBManager} :
      (ServiceOperation.updateRecipe recipeId recipe).call environment m = (.ok (), m') →
      Accepted recipe m recipeId m'

/-- Reading an id finds `found`: a fresh manager over the same data does, and so does any read that
returns. -/
structure ReadsBack (m : DBManager) (recipeId : Int) (found : Recipe) : Prop where
  fresh : (runOn (getRecipe recipeId) (onTables m.db.tables m.db.sequences)).1 = .ok (some found)
  answers : ∀ environment r,
    (runOn (getRecipe recipeId) (m.withEnvironment environment)).1 = .ok r → r = some found

/-- Every listed key is in stock, with at least the total listed for it. -/
def InStock (stock : List ProductRow) (ingredients : List Product) : Prop :=
  ∀ i ∈ ingredients,
    ∃ p ∈ stock, p.key = productKey i ∧ total ingredients (productKey i) ≤ p.amountBase

/-- What `recipe` lists is what the recipe under `recipeId` requires. -/
structure KeepsRequirements (recipe : Recipe) (recipeId : Int) (m : DBManager) : Prop where
  readBack : ∃ found, ReadsBack m recipeId found ∧
    ∀ key, total found.ingredients key = total recipe.ingredients key
  /-- Over every stock, whoever reports the cookable recipes. -/
  cookable : ∀ (s : DBManager) environment reported, Store.Valid s.db.tables s.db.sequences →
    s.db.tables.recipes = m.db.tables.recipes →
    s.db.tables.recipeIngredients = m.db.tables.recipeIngredients →
    (runOn getCookableRecipes (s.withEnvironment environment)).1 = .ok reported →
    ((∃ r ∈ reported, r.id = some recipeId) ↔ InStock s.db.tables.products recipe.ingredients)

section

variable {m m' : DBManager} {recipe : Recipe} {recipeId : Int}

/-! ## What is stored -/

/-- What an accepted recipe leaves. -/
structure Stored (recipe : Recipe) (recipeId : Int) (m : DBManager) : Prop where
  valid : Store.Valid m.db.tables m.db.sequences
  present : HasRecipe recipeId m.db.tables
  filled : Filled recipeId recipe.ingredients m.db.tables
  nonnegative : ∀ i ∈ recipe.ingredients, 0 ≤ i.amount.toInt

theorem Accepted.stored (hrest : Rests Store.Valid m) (h : Accepted recipe m recipeId m') :
    Stored recipe recipeId m' := by
  have hvalid : ∀ {op : ServiceOperation} {environment result},
      op.call environment m = (result, m') → Store.Valid m'.db.tables m'.db.sequences := by
    intro op environment result hcall
    have hcalled : Rests Store.Valid (op.call environment m).2 := call_rests hrest
    rw [hcall] at hcalled
    exact hcalled.1
  cases h with
  | @create environment created _ _ hcall hid =>
      have hv := hvalid hcall
      have hrun : runOn (ServiceOperation.createRecipe recipe).run (m.withEnvironment environment) =
          (.ok (.ok created), m') := by rw [ServiceOperation.runOn_eq_call, hcall]
      rw [ServiceOperation.run, RecipeService.createRecipe] at hrun
      split at hrun
      · simp at hrun
      next hvalidated =>
      rw [createRecipe_eq_createThenGet] at hrun
      obtain ⟨id, m₁, hcreate, hget⟩ := createThenGet_eq_ok hrun
      have hdb : m'.db = m₁.db :=
        ((getRecipe_readsAs id).keeps (db_keptByReads m₁.db)).of_ok rfl hget
      have hfound : some created = findRecipe (storedRecipes m'.db.tables) id := by
        rw [← selectRecipeById_fetch hv, hdb]
        exact (getRecipe_readsAs id).exact _ _ _ hget
      -- the read was by the id the create returned
      obtain rfl : id = recipeId := by
        have := List.find?_some hfound.symm
        simpa [hid, eq_comm] using this
      have hwritten := createRecipe_written.of_ok trivial hcreate
      rw [← hdb] at hwritten
      exact ⟨hv, hwritten.hasRecipe, hwritten.filled,
        fun i hi => ((RecipeService.validateRecipe_eq_ok.mp hvalidated).2 i hi).2⟩
  | @update environment _ _ hcall =>
      have hrun : runOn (ServiceOperation.updateRecipe recipeId recipe).run
          (m.withEnvironment environment) = (.ok (.ok ()), m') := by
        rw [ServiceOperation.runOn_eq_call, hcall]
      rw [ServiceOperation.run, RecipeService.updateRecipe] at hrun
      split at hrun
      · simp at hrun
      next hvalidated =>
      have hupdate := requireFound_eq_ok hrun
      have hnonneg := fun i hi => ((RecipeService.validateRecipe_eq_ok.mp hvalidated).2 i hi).2
      have hwritten := updateRecipe_written.of_ok trivial hupdate rfl
      exact ⟨hvalid hcall, hwritten.hasRecipe, hwritten.filled, hnonneg⟩

/-! ## What is read back -/

theorem Stored.readsBack (h : Stored recipe recipeId m) :
    ∃ found, ReadsBack m recipeId found ∧ ∀ key,
      total found.ingredients key = (lastAmount recipe.ingredients key).getD 0 := by
  obtain ⟨row, hrow, rfl⟩ := h.present
  have hanswer : ((Read.selectRecipeByIdWithIngredients.sql (params [.integer row.id])
      m.db.tables).foldl fetchRow {}).recipes.head? = some (storedRecipe m.db.tables row) :=
    (selectRecipeById_fetch h.valid row.id).trans (findRecipe_stored h.valid hrow)
  refine ⟨storedRecipe m.db.tables row, ⟨?_, fun environment r hr => ?_⟩,
    total_storedIngredients h.valid h.filled⟩
  · obtain ⟨m', hm'⟩ : ∃ m', runOn (getRecipe row.id) (onTables m.db.tables m.db.sequences) =
        (.ok (findRecipe (storedRecipes m.db.tables) row.id), m') :=
      getRecipe_returns h.valid rfl (by simp [Undisturbed, onTables])
    rw [hm', findRecipe_stored h.valid hrow]
  · rw [(getRecipe_readsAs row.id).exact _ _ _ (Prod.ext hr rfl)]
    exact hanswer

theorem Stored.cookable_iff (h : Stored recipe recipeId m) {s : DBManager}
    {environment : List StepOutcome} {reported : List Recipe}
    (hv : Store.Valid s.db.tables s.db.sequences)
    (hrecipes : s.db.tables.recipes = m.db.tables.recipes)
    (hingredients : s.db.tables.recipeIngredients = m.db.tables.recipeIngredients)
    (hrun : (runOn getCookableRecipes (s.withEnvironment environment)).1 = .ok reported) :
    (∃ r ∈ reported, r.id = some recipeId) ↔
      ∀ key amount, lastAmount recipe.ingredients key = some amount →
        ∃ p ∈ s.db.tables.products, p.key = key ∧ amount ≤ p.amountBase := by
  have hreported : reported = (storedRecipes s.db.tables).filter (cookable s.db.tables) :=
    ((fetchRecipes_readsAs _).exact _ _ _ (Prod.ext hrun rfl)).trans
      (selectCookableRecipes_fetch hv (params []))
  have hfilled : Filled recipeId recipe.ingredients s.db.tables := by
    intro key amount
    rw [hingredients]
    exact h.filled key amount
  rw [hreported]
  constructor
  · rintro ⟨r, hr, hid⟩
    exact (cookable_filled hfilled hid).mp (List.mem_filter.mp hr).2
  · intro hstock
    obtain ⟨row, hrow, rfl⟩ := h.present
    have hmem : storedRecipe s.db.tables row ∈ storedRecipes s.db.tables :=
      mem_storedRecipes.mpr ⟨row, hrecipes ▸ hrow, rfl⟩
    exact ⟨storedRecipe s.db.tables row,
      List.mem_filter.mpr ⟨hmem, (cookable_filled hfilled rfl).mpr hstock⟩, rfl⟩

/-- **An accepted recipe keeps what it requires exactly when every listing that a later one of the
same product and dimension overwrites asks for nothing.** -/
theorem keepsRequirements_iff (h : managerRuns.Reachable m)
    (haccepted : Accepted recipe m recipeId m') :
    KeepsRequirements recipe recipeId m' ↔ OverwrittenAreZero recipe.ingredients := by
  have hstored := haccepted.stored (rests_valid h)
  rw [← total_eq_lastAmount_iff hstored.nonnegative]
  obtain ⟨found, hreads, hfound⟩ := hstored.readsBack
  constructor
  · rintro ⟨⟨found', hreads', htotal⟩, -⟩ key
    have hsame : found' = found :=
      Option.some_inj.mp (Except.ok.inj (hreads'.fresh.symm.trans hreads.fresh))
    rw [← htotal key, hsame, hfound key]
  · intro hkept
    refine ⟨⟨found, hreads, fun key => (hfound key).trans (hkept key).symm⟩, ?_⟩
    intro s environment reported hv hrecipes hingredients hrun
    rw [hstored.cookable_iff hv hrecipes hingredients hrun]
    constructor
    · intro hstock i hi
      cases hlast : lastAmount recipe.ingredients (productKey i) with
      | none => exact absurd rfl (lastAmount_eq_none.mp hlast i hi)
      | some amount =>
          obtain ⟨p, hp, hkey, hle⟩ := hstock _ amount hlast
          exact ⟨p, hp, hkey, by rw [hkept, hlast]; exact hle⟩
    · intro hstock key amount hlast
      obtain ⟨i, hi, rfl⟩ : ∃ i ∈ recipe.ingredients, productKey i = key := by
        by_contra hno
        have : lastAmount recipe.ingredients key = none :=
          lastAmount_eq_none.mpr fun i hi hkey => hno ⟨i, hi, hkey⟩
        rw [hlast] at this
        cases this
      obtain ⟨p, hp, hkey, hle⟩ := hstock i hi
      rw [hkept, hlast] at hle
      exact ⟨p, hp, hkey, hle⟩

end

/-- Flour is listed twice. -/
def dough : Recipe :=
  { name := "dough"
    ingredients := [{ name := "flour", amount := 100, dimension := .gramm },
      { name := "salt", amount := 5, dimension := .gramm },
      { name := "flour", amount := 50, dimension := .gramm }] }

/-- An empty store after it was asked to create `recipe`. -/
def afterCreating (recipe : Recipe) : DBManager :=
  ((ServiceOperation.createRecipe recipe).call [] {}).2

theorem accepted_afterCreating {recipe : Recipe} {recipeId : Int}
    (h : ((ServiceOperation.createRecipe recipe).call [] {}).1.map (fun r : Recipe => r.id) =
      .ok (some recipeId)) : Accepted recipe {} recipeId (afterCreating recipe) := by
  cases hcall : (ServiceOperation.createRecipe recipe).call [] {} with
  | mk result m' =>
      rw [hcall] at h
      cases result with
      | error error => cases h
      | ok created =>
          rw [afterCreating, hcall]
          exact .create hcall (Except.ok.inj h)

/-- The first listing of the flour is lost. -/
theorem dough_loses_flour :
    managerRuns.Reachable {} ∧ Accepted dough {} 1 (afterCreating dough) ∧
      total dough.ingredients ("flour", 0) = 150 ∧
      ¬ KeepsRequirements dough 1 (afterCreating dough) := by
  refine ⟨.init rfl, accepted_afterCreating (by decide +kernel), by decide, ?_⟩
  rintro ⟨⟨found, hreads, htotal⟩, -⟩
  have hread : (runOn (getRecipe 1) (onTables (afterCreating dough).db.tables
      (afterCreating dough).db.sequences)).1.map
        (fun r : Option Recipe => r.map fun r => total r.ingredients ("flour", 0)) =
      .ok (some 50) := by decide +kernel
  have hlisted : total dough.ingredients ("flour", 0) = 150 := by decide
  rw [hreads.fresh, Except.map, Option.map_some, htotal, hlisted] at hread
  cases hread

/-- The first listing of the salt asks for nothing. -/
def flatbread : Recipe :=
  { name := "flatbread"
    ingredients := [{ name := "salt", amount := 0, dimension := .gramm },
      { name := "flour", amount := 100, dimension := .gramm },
      { name := "salt", amount := 5, dimension := .gramm }] }

theorem keepsRequirements_flatbread : KeepsRequirements flatbread 1 (afterCreating flatbread) :=
  (keepsRequirements_iff (.init rfl) (accepted_afterCreating (by decide +kernel))).mpr (by decide)

end RecipesCore.App
