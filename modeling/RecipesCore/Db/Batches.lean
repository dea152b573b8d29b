import RecipesCore.Db.Lockstep
import RecipesCore.Db.RecipeWrites
import RecipesCore.Relational.Upserts

/-!
# A list of inserted recipes

What is left when the recipes of a list were inserted one after the other: the recipes that were
there keep their ids, a name that is listed has the ingredients of its last listing, and the others
have what they had (`RecipesInserted`). The invariant is the same whether one transaction is around
all inserts or one around each, so both ways end in the same recipes.
-/

namespace RecipesCore.Db

open RecipesCore.Logic RecipesCore.Logic.Program
open RecipesCore.Relational
open RecipesCore.Sqlite
open RecipesCore.Types
open DBManager

/-! ## The invariant -/

/-- The recipe requires this amount of a key. -/
def Requires (tables : Tables) (recipeId : Int) (key : String × Int) (amount : Int) : Prop :=
  ∃ row ∈ tables.recipeIngredients, row.key = (recipeId, key) ∧ row.requiredAmountBase = amount

/-- The tables once the recipes of a list were inserted. -/
structure RecipesInserted (start : Tables) (listed : List Recipe) (tables : Tables) : Prop where
  recipes : ∃ added, tables.recipes = start.recipes ++ added ∧
    ∀ row ∈ added, ∃ recipe ∈ listed, recipe.name = row.name
  present : ∀ recipe ∈ listed, ∃ recipeId, HoldsName tables recipeId recipe.name
  filled : ∀ row ∈ tables.recipes, ∀ recipe,
    lastListed Recipe.name listed row.name = some recipe → Filled row.id recipe.ingredients tables
  unlisted : ∀ row ∈ tables.recipes, lastListed Recipe.name listed row.name = none →
    ∀ i : IngredientRow, i.recipeId = row.id →
      (i ∈ tables.recipeIngredients ↔ i ∈ start.recipeIngredients)

section

variable {start before after t₁ t₂ : Tables} {sequences : Sequences} {listed : List Recipe}
  {recipe : Recipe} {recipeId : Int}

theorem RecipesInserted.nil : RecipesInserted start [] start where
  recipes := ⟨[], (List.append_nil _).symm, nofun⟩
  present := nofun
  filled := nofun
  unlisted _ _ _ _ _ := Iff.rfl

/-- The rows of a recipe decide what it requires. -/
theorem requires_congr (h : ∀ i : IngredientRow, i.recipeId = recipeId →
    (i ∈ after.recipeIngredients ↔ i ∈ before.recipeIngredients)) (key : String × Int)
    (amount : Int) : Requires after recipeId key amount ↔ Requires before recipeId key amount := by
  apply exists_congr
  intro row
  constructor
  · intro hrow
    exact ⟨(h row (congrArg Prod.fst hrow.2.1)).mp hrow.1, hrow.2⟩
  · intro hrow
    exact ⟨(h row (congrArg Prod.fst hrow.2.1)).mpr hrow.1, hrow.2⟩

theorem RecipeInserted.kept (h : RecipeInserted recipe before after) {row : RecipeRow}
    (hrow : row ∈ before.recipes) : row ∈ after.recipes := by
  rcases h.recipes with heq | ⟨new, -, heq⟩
  · rw [heq]
    exact hrow
  · rw [heq]
    exact List.mem_append_left _ hrow

/-- A recipe of another name was there, and its ingredients stay. -/
theorem RecipeInserted.other (h : RecipeInserted recipe before after)
    (hv : Store.Valid after sequences) {row : RecipeRow} (hrow : row ∈ after.recipes)
    (hne : recipe.name ≠ row.name) :
    row ∈ before.recipes ∧ ∀ i : IngredientRow, i.recipeId = row.id →
      (i ∈ after.recipeIngredients ↔ i ∈ before.recipeIngredients) := by
  constructor
  · rcases h.recipes with heq | ⟨new, hname, heq⟩
    · rw [← heq]
      exact hrow
    · rw [heq] at hrow
      rcases List.mem_append.mp hrow with hrow | hrow
      · exact hrow
      · rw [List.mem_singleton.mp hrow] at hne
        exact absurd hname.symm hne
  · obtain ⟨recipeId, hwritten, hbeside⟩ := h.written
    intro i hi
    apply hbeside i
    rw [hi]
    -- under one id there is one name
    intro hid
    have hsame := recipe_eq_of_id hv hrow hwritten.holdsName hid
    exact hne (congrArg RecipeRow.name hsame).symm

/-- **One more insert.** -/
theorem RecipesInserted.insert (h : RecipesInserted start listed before)
    (hinsert : RecipeInserted recipe before after) (hv : Store.Valid after sequences) :
    RecipesInserted start (listed ++ [recipe]) after := by
  obtain ⟨recipeId, hwritten, -⟩ := hinsert.written
  refine ⟨?_, ?_, ?_, ?_⟩
  · obtain ⟨added, hadded, hnames⟩ := h.recipes
    have hnames' : ∀ row ∈ added, ∃ other ∈ listed ++ [recipe], other.name = row.name := by
      intro row hrow
      obtain ⟨other, hother, hname⟩ := hnames row hrow
      exact ⟨other, List.mem_append_left _ hother, hname⟩
    rcases hinsert.recipes with heq | ⟨new, hname, heq⟩
    · exact ⟨added, heq.trans hadded, hnames'⟩
    · refine ⟨added ++ [new], by rw [heq, hadded, List.append_assoc], ?_⟩
      intro row hrow
      rcases List.mem_append.mp hrow with hrow | hrow
      · exact hnames' row hrow
      · rw [List.mem_singleton.mp hrow]
        exact ⟨recipe, List.mem_append_right _ (List.mem_singleton_self _), hname.symm⟩
  · intro other hmem
    rcases List.mem_append.mp hmem with hmem | hmem
    · obtain ⟨id, hid⟩ := h.present other hmem
      exact ⟨id, hinsert.kept hid⟩
    · rw [List.mem_singleton.mp hmem]
      exact ⟨recipeId, hwritten.holdsName⟩
  · intro row hrow last hlast
    rw [lastListed_append] at hlast
    split at hlast
    · next hname =>
        cases hlast
        -- one recipe has the name, so it is the one written last
        have hheld : HoldsName after row.id recipe.name := hname ▸ hrow
        have hid := List.inj_on_of_nodup_map hv.recipeNames hheld hwritten.holdsName rfl
        rw [show row.id = recipeId from congrArg RecipeRow.id hid]
        exact hwritten.filled
    · next hne =>
        obtain ⟨hbefore, hsame⟩ := hinsert.other hv hrow hne
        intro key amount
        rw [← h.filled row hbefore last hlast key amount]
        exact requires_congr hsame key amount
  · intro row hrow hlast i hi
    rw [lastListed_append] at hlast
    split at hlast
    · cases hlast
    · next hne =>
        obtain ⟨hbefore, hsame⟩ := hinsert.other hv hrow hne
        rw [hsame i hi]
        exact h.unlisted row hbefore hlast i hi

/-! ## Two ways to the same recipes -/

/-- The recipes that were there at the start are in both, the same names are in both, and recipes of
one name require the same. -/
structure SameRecipes (start t₁ t₂ : Tables) : Prop where
  kept : ∀ row ∈ start.recipes, row ∈ t₁.recipes ∧ row ∈ t₂.recipes
  names : ∀ name, (∃ recipeId, HoldsName t₁ recipeId name) ↔ ∃ recipeId, HoldsName t₂ recipeId name
  requires : ∀ name id₁ id₂, HoldsName t₁ id₁ name → HoldsName t₂ id₂ name →
    ∀ key amount, Requires t₁ id₁ key amount ↔ Requires t₂ id₂ key amount

theorem RecipesInserted.kept (h : RecipesInserted start listed after) {row : RecipeRow}
    (hrow : row ∈ start.recipes) : row ∈ after.recipes := by
  obtain ⟨added, hadded, -⟩ := h.recipes
  rw [hadded]
  exact List.mem_append_left _ hrow

/-- A row whose name is not listed was there. -/
theorem RecipesInserted.of_unlisted (h : RecipesInserted start listed after) {row : RecipeRow}
    (hrow : row ∈ after.recipes) (hlast : lastListed Recipe.name listed row.name = none) :
    row ∈ start.recipes := by
  obtain ⟨added, hadded, hnames⟩ := h.recipes
  rw [hadded] at hrow
  rcases List.mem_append.mp hrow with hrow | hrow
  · exact hrow
  · obtain ⟨recipe, hmem, hname⟩ := hnames row hrow
    exact absurd hname (lastListed_eq_none.mp hlast recipe hmem)

theorem RecipesInserted.holdsName_iff (h : RecipesInserted start listed after) (name : String) :
    (∃ recipeId, HoldsName after recipeId name) ↔
      (∃ recipeId, HoldsName start recipeId name) ∨ ∃ recipe ∈ listed, recipe.name = name := by
  constructor
  · rintro ⟨recipeId, hheld⟩
    obtain ⟨added, hadded, hnames⟩ := h.recipes
    rw [HoldsName, hadded] at hheld
    rcases List.mem_append.mp hheld with hheld | hheld
    · exact Or.inl ⟨recipeId, hheld⟩
    · exact Or.inr (hnames _ hheld)
  · rintro (⟨recipeId, hheld⟩ | ⟨recipe, hmem, rfl⟩)
    · exact ⟨recipeId, h.kept hheld⟩
    · exact h.present recipe hmem

/-- **The same list leaves the same recipes**, whichever ids the new ones get. -/
theorem RecipesInserted.sameRecipes {q₂ : Sequences} (h₁ : RecipesInserted start listed t₁)
    (h₂ : RecipesInserted start listed t₂) (hv₂ : Store.Valid t₂ q₂) :
    SameRecipes start t₁ t₂ where
  kept row hrow := ⟨h₁.kept hrow, h₂.kept hrow⟩
  names name := (h₁.holdsName_iff name).trans (h₂.holdsName_iff name).symm
  requires name id₁ id₂ hheld₁ hheld₂ key amount := by
    cases hlast : lastListed Recipe.name listed name with
    | some recipe =>
        exact (h₁.filled _ hheld₁ recipe hlast key amount).trans
          (h₂.filled _ hheld₂ recipe hlast key amount).symm
    | none =>
        -- the recipe was there, so it has one id in both
        have hstart := h₁.of_unlisted hheld₁ hlast
        have hid := List.inj_on_of_nodup_map hv₂.recipeNames (h₂.kept hstart) hheld₂ rfl
        obtain rfl : id₁ = id₂ := congrArg RecipeRow.id hid
        exact (requires_congr (h₁.unlisted _ hheld₁ hlast) key amount).trans
          (requires_congr (h₂.unlisted _ hheld₂ hlast) key amount).symm

/-! ## The same list again -/

/-- The columns of an ingredient row, which leave out the rowid. -/
def ingredientColumns (row : IngredientRow) : Int × String × Int × Int :=
  (row.recipeId, row.productName, row.dimension, row.requiredAmountBase)

/-- The same rows, up to the order SQLite keeps them in and the rowids of the ingredients. -/
structure SameRows (before after : Tables) : Prop where
  products : after.products = before.products
  recipes : after.recipes = before.recipes
  ingredients : (after.recipeIngredients.map ingredientColumns).Perm
    (before.recipeIngredients.map ingredientColumns)

theorem ingredientColumns_nodup (hv : Store.Valid before sequences) :
    (before.recipeIngredients.map ingredientColumns).Nodup := by
  apply List.pairwise_map.mpr
  apply (List.pairwise_map.mp hv.ingredientKeys).imp
  intro a b hne heq
  simp only [ingredientColumns, Prod.mk.injEq] at heq
  exact hne (by rw [IngredientRow.key, IngredientRow.key, heq.1, heq.2.1, heq.2.2.1])

theorem mem_ingredientColumns {name : String} {dimension amount : Int} :
    (recipeId, name, dimension, amount) ∈ before.recipeIngredients.map ingredientColumns ↔
      Requires before recipeId (name, dimension) amount := by
  rw [List.mem_map]
  apply exists_congr
  intro row
  apply and_congr_right
  intro _
  simp only [ingredientColumns, IngredientRow.key, Prod.mk.injEq, and_assoc]

/-- What a recipe requires belongs to a recipe that is there. -/
theorem requires_recipe (hv : Store.Valid before sequences) {key : String × Int} {amount : Int}
    (h : Requires before recipeId key amount) : ∃ row ∈ before.recipes, row.id = recipeId := by
  obtain ⟨i, hi, hkey, -⟩ := h
  obtain ⟨row, hrow, hid⟩ := hv.ingredientRecipes i hi
  exact ⟨row, hrow, hid.trans (congrArg Prod.fst hkey)⟩

/-- **The same list once more changes nothing.** -/
theorem RecipesInserted.again {q₁ q₂ : Sequences} (h : RecipesInserted start listed t₁)
    (h' : RecipesInserted t₁ listed t₂) (hv₁ : Store.Valid t₁ q₁) (hv₂ : Store.Valid t₂ q₂)
    (hproducts : t₂.products = t₁.products) : SameRows t₁ t₂ := by
  have hrecipes : t₂.recipes = t₁.recipes := by
    obtain ⟨added, hadded, hnames⟩ := h'.recipes
    have hnone : added = [] := by
      apply List.eq_nil_iff_forall_not_mem.mpr
      intro row hrow
      obtain ⟨recipe, hmem, hname⟩ := hnames row hrow
      obtain ⟨recipeId, hheld⟩ := h.present recipe hmem
      -- the name would be there twice
      have hnodup := hv₂.recipeNames
      rw [hadded, List.map_append] at hnodup
      exact (List.nodup_append.mp hnodup).2.2 _ (List.mem_map.mpr ⟨_, hheld, rfl⟩) _
        (List.mem_map.mpr ⟨row, hrow, rfl⟩) hname
    rw [hadded, hnone, List.append_nil]
  refine ⟨hproducts, hrecipes, ?_⟩
  apply (List.perm_ext_iff_of_nodup (ingredientColumns_nodup hv₂)
    (ingredientColumns_nodup hv₁)).mpr
  -- each row belongs to a recipe, and that requires the same as before
  have hrequires : ∀ row ∈ t₁.recipes, ∀ key amount,
      Requires t₂ row.id key amount ↔ Requires t₁ row.id key amount := by
    intro row hrow key amount
    have hrow₂ : row ∈ t₂.recipes := hrecipes ▸ hrow
    cases hlast : lastListed Recipe.name listed row.name with
    | some recipe =>
        exact (h'.filled row hrow₂ recipe hlast key amount).trans
          (h.filled row hrow recipe hlast key amount).symm
    | none => exact requires_congr (h'.unlisted row hrow₂ hlast) key amount
  rintro ⟨recipeId, name, dimension, amount⟩
  rw [mem_ingredientColumns, mem_ingredientColumns]
  constructor
  · intro hreq
    obtain ⟨row, hrow, rfl⟩ := requires_recipe hv₂ hreq
    exact (hrequires row (hrecipes ▸ hrow) _ _).mp hreq
  · intro hreq
    obtain ⟨row, hrow, rfl⟩ := requires_recipe hv₁ hreq
    exact (hrequires row hrow _ _).mpr hreq

end

/-! ## Both programs keep the invariant -/

section

variable {start : Tables}

/-- The body of an insert, on valid tables. -/
theorem insertRecipeBody_inserted (listed : List Recipe) (recipe : Recipe) :
    Triple (fun m => Store.Valid m.db.tables m.db.sequences ∧
        RecipesInserted start listed m.db.tables) (insertRecipeBody recipe)
      (fun _ m => Store.Valid m.db.tables m.db.sequences ∧
        RecipesInserted start (listed ++ [recipe]) m.db.tables) (fun _ _ => True) := by
  apply Triple.of_each
  intro m hm
  obtain ⟨hv, hinserted⟩ := hm
  have hkeeps : Keeps (With Store.Valid fun _ => True) (insertRecipeBody recipe) :=
    insertRecipeBody_keeps (with_kept (Store.closed_valid {}))
      (Recipe.admitted_all recipe)
  have hinserts := @insertRecipeBody_inserts recipe m.db.tables (fun _ => True) fun _ _ => trivial
  apply (hkeeps.and hinserts).conseq
  · intro s hs
    rw [hs]
    exact ⟨⟨hv, trivial⟩, rfl, fun _ _ => trivial, fun _ _ _ => trivial⟩
  · intro _ s hs
    exact ⟨hs.1.1, hinserted.insert hs.2.1 hs.1.1⟩
  · exact fun _ _ _ => trivial

/-- **All inserts in one transaction.** -/
theorem insertRecipes_inserted (recipes : List Recipe) :
    Triple (fun m => Store.Valid m.db.tables m.db.sequences ∧ m.db.tables = start)
      (insertRecipes recipes) (fun _ m => RecipesInserted start recipes m.db.tables)
      (fun _ _ => True) := by
  rw [insertRecipes_eq]
  apply transaction_commits_from
    (P := fun db => Store.Valid db.tables db.sequences ∧ db.tables = start)
    (Q := fun _ tables => RecipesInserted start recipes tables)
  have hloop : Triple (fun m => Store.Valid m.db.tables m.db.sequences ∧ m.db.tables = start)
      (recipes.forM insertRecipeBody) (fun _ m => RecipesInserted start recipes m.db.tables)
      (fun _ _ => True) := by
    apply (Triple.forM_done (I := fun listed (m : DBManager) =>
      Store.Valid m.db.tables m.db.sequences ∧ RecipesInserted start listed m.db.tables)
      insertRecipeBody_inserted).conseq
    · intro m hm
      exact ⟨hm.1, hm.2 ▸ RecipesInserted.nil⟩
    · exact fun _ _ h => h.2
    · exact fun _ _ h => h
  apply hloop.bind
  intro _
  exact (commit_tables (Q := RecipesInserted start recipes)).conseq (fun _ h => h)
    (fun _ _ h => Or.inl h) (fun _ _ h => h)

/-- **Each insert in a transaction of its own.** -/
theorem forM_insertRecipe_inserted (recipes : List Recipe) :
    Triple (fun m => Rests Store.Valid m ∧ m.db.tables = start) (recipes.forM insertRecipe)
      (fun _ m => Rests Store.Valid m ∧ RecipesInserted start recipes m.db.tables)
      (fun _ _ => True) := by
  have hstep : ∀ listed recipe, Triple
      (fun m => Rests Store.Valid m ∧ RecipesInserted start listed m.db.tables)
      (insertRecipe recipe)
      (fun _ m => Rests Store.Valid m ∧ RecipesInserted start (listed ++ [recipe]) m.db.tables)
      (fun _ _ => True) := by
    intro listed recipe
    apply Triple.of_each
    intro m hm
    obtain ⟨hrest, hinserted⟩ := hm
    have hkeeps : Keeps (Rests Store.Valid) (insertRecipe recipe) :=
      insertRecipe_keeps (rests_kept (Store.closed_valid {}))
        (Recipe.admitted_all recipe)
    apply (hkeeps.and (@insertRecipe_inserts recipe m.db.tables)).conseq
    · intro s hs
      rw [hs]
      exact ⟨hrest, rfl⟩
    · intro _ s hs
      exact ⟨hs.1, hinserted.insert hs.2 hs.1.1⟩
    · exact fun _ _ _ => trivial
  apply (Triple.forM_done (I := fun listed (m : DBManager) =>
    Rests Store.Valid m ∧ RecipesInserted start listed m.db.tables) hstep).conseq
  · intro m hm
    exact ⟨hm.1, hm.2 ▸ RecipesInserted.nil⟩
  · exact fun _ _ h => h
  · exact fun _ _ h => h

end

end RecipesCore.Db
