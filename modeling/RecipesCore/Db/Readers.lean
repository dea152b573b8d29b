import RecipesCore.Db.Store

/-!
# What the recipe readers return

`storedRecipes` is the answer a reader should give, said without SQL: the recipes by name, each with
its ingredients by product name and dimension. The readers get there by a flat sorted join that a
loop regroups, comparing each id with the last one. The sorted join lists the rows of a recipe next
to each other (`orderBy_leftJoin`, from the uniqueness of names), and ids are unique and positive,
so the loop opens each recipe once (`foldl_fetchRow_leftJoin`).
-/

namespace RecipesCore.Db

open RecipesCore.Relational
open RecipesCore.Sqlite
open RecipesCore.Types
open RecipesCore.Types.PreparedStatements
open DBManager

/-! ## The answers -/

/-- An ingredient row as a reader hands it out. -/
def storedIngredient (row : IngredientRow) : Product :=
  { name := row.productName
    dimension := Dimension.ofCode (Int32.ofInt row.dimension).toInt
    amount := Int32.ofInt row.requiredAmountBase }

def storedIngredients (tables : Tables) (recipeId : Int) : List Product :=
  (orderBy (fun row : IngredientRow => toLex (row.productName, row.dimension))
    (tables.recipeIngredients.filter fun row => decide (row.recipeId = recipeId))).map
    storedIngredient

def storedRecipe (tables : Tables) (row : RecipeRow) : Recipe :=
  { name := row.name, ingredients := storedIngredients tables row.id, id := some row.id }

def storedRecipes (tables : Tables) : List Recipe :=
  (orderBy (fun row : RecipeRow => row.name) tables.recipes).map (storedRecipe tables)

/-- Everything the recipe needs is in stock: for each of its ingredient rows a product of the same
name and dimension, and enough of it. -/
def cookable (tables : Tables) (recipe : Recipe) : Bool :=
  tables.recipeIngredients.all fun i =>
    decide (recipe.id ≠ some i.recipeId) || tables.products.any fun p =>
      decide (p.name = i.productName) && decide (p.dimension = i.dimension) &&
        decide (i.requiredAmountBase ≤ p.amountBase)

/-! ## The regrouping loop -/

theorem addToLast_append (ingredient : Product) (recipe : Recipe) :
    ∀ recipes : List Recipe, addToLast ingredient (recipes ++ [recipe])
      = recipes ++ [recipe.addIngredient ingredient]
  | [] => rfl
  | [_] => rfl
  | first :: next :: rest => by
      have ih := addToLast_append ingredient recipe (next :: rest)
      simp only [List.cons_append, addToLast] at ih ⊢
      rw [ih]

theorem readIngredient_joinedColumns (r : RecipeRow) (i : IngredientRow) :
    readIngredient (joinedColumns (r, some i)) 2 = storedIngredient i := rfl

/-- A row of another recipe than the current one opens it. -/
theorem fetchRow_opens {fetching : Fetching} {x : RecipeRow × Option IngredientRow}
    (h : fetching.currentId ≠ x.1.id) :
    fetchRow fetching (joinedColumns x) =
      { recipes := fetching.recipes ++
          [{ name := x.1.name, id := some x.1.id
             ingredients := (x.2.map storedIngredient).toList }]
        currentId := x.1.id } := by
  have hid : (getColumn (joinedColumns x) 0).getInt64 = x.1.id := rfl
  have hne : (x.1.id != fetching.currentId) = true := by simpa using h.symm
  obtain ⟨r, _ | i⟩ := x
  · simp only [fetchRow, hid, hne, if_true]
    rfl
  · have hnull : (getColumn (joinedColumns (r, some i)) 2).isNull = false := rfl
    simp only [fetchRow, hid, hne, if_true, hnull, Bool.false_eq_true, if_false, addToLast_append,
      readIngredient_joinedColumns]
    rfl

/-- A row of the current recipe adds its ingredient. -/
theorem fetchRow_adds (recipes : List Recipe) (recipe : Recipe) (r : RecipeRow)
    (i : IngredientRow) :
    fetchRow { recipes := recipes ++ [recipe], currentId := r.id } (joinedColumns (r, some i)) =
      { recipes := recipes ++ [recipe.addIngredient (storedIngredient i)], currentId := r.id } := by
  have hid : (getColumn (joinedColumns (r, some i)) 0).getInt64 = r.id := rfl
  have hnull : (getColumn (joinedColumns (r, some i)) 2).isNull = false := rfl
  simp only [fetchRow, hid, bne_self_eq_false, Bool.false_eq_true, if_false, hnull,
    addToLast_append, readIngredient_joinedColumns]

theorem foldl_fetchRow_adds (recipes : List Recipe) (r : RecipeRow) :
    ∀ (is : List IngredientRow) (recipe : Recipe),
      ((is.map fun i => (r, some i)).map joinedColumns).foldl fetchRow
          { recipes := recipes ++ [recipe], currentId := r.id } =
        { recipes := recipes ++
            [{ recipe with ingredients := recipe.ingredients ++ is.map storedIngredient }]
          currentId := r.id }
  | [], recipe => by simp
  | i :: is, recipe => by
      simp only [List.map_cons, List.foldl_cons, fetchRow_adds]
      rw [foldl_fetchRow_adds recipes r is]
      simp [Recipe.addIngredient]

/-- **The rows of one recipe make one recipe**, whatever was read before. -/
theorem foldl_fetchRow_block {on : RecipeRow → IngredientRow → Bool} {right : List IngredientRow}
    {r : RecipeRow} {fetching : Fetching} (h : fetching.currentId ≠ r.id) :
    ((block on right r).map joinedColumns).foldl fetchRow fetching =
      { recipes := fetching.recipes ++
          [{ name := r.name, id := some r.id
             ingredients := (right.filter (on r)).map storedIngredient }]
        currentId := r.id } := by
  unfold block
  cases right.filter (on r) with
  | nil =>
      simp only [List.map_cons, List.map_nil, List.foldl_cons, List.foldl_nil]
      rw [fetchRow_opens h]
      rfl
  | cons i is =>
      simp only [List.map_cons, List.foldl_cons]
      rw [fetchRow_opens h, foldl_fetchRow_adds]
      simp

/-- **The loop undoes the join.** -/
theorem foldl_fetchRow_leftJoin {on : RecipeRow → IngredientRow → Bool}
    {right : List IngredientRow} :
    ∀ (left : List RecipeRow) (fetching : Fetching), (left.map fun r => r.id).Nodup →
      (∀ r ∈ left, fetching.currentId ≠ r.id) →
      (((leftJoin on left right).map joinedColumns).foldl fetchRow fetching).recipes =
        fetching.recipes ++ left.map fun r =>
          { name := r.name, id := some r.id
            ingredients := (right.filter (on r)).map storedIngredient }
  | [], _, _, _ => by simp [leftJoin]
  | r :: left, fetching, hnd, hne => by
      obtain ⟨hr, hleft⟩ := List.nodup_cons.mp hnd
      simp only [leftJoin, List.flatMap_cons, List.map_append, List.foldl_append]
      rw [foldl_fetchRow_block (hne r (by simp))]
      have ih := @foldl_fetchRow_leftJoin on right left
        { recipes := fetching.recipes ++ [{ name := r.name, id := some r.id
                                            ingredients := (right.filter (on r)).map storedIngredient }]
          currentId := r.id } hleft fun r' hr' heq => hr (List.mem_map.mpr ⟨r', hr', heq.symm⟩)
      simp only [leftJoin] at ih
      rw [ih]
      simp

/-! ## The queries -/

section

variable {tables : Tables} {sequences : Sequences}

/-- The ingredients of a recipe, as `recipesWithIngredients` matches them. -/
def ofRecipe (r : RecipeRow) (i : IngredientRow) : Bool := decide (i.recipeId = r.id)

/-- The nullable sort key orders the rows that are there by name and dimension. -/
theorem orderBy_ingredientOrder (rows : List IngredientRow) :
    orderBy (fun i => ingredientOrder (some i)) rows =
      orderBy (fun i : IngredientRow => toLex (i.productName, i.dimension)) rows := by
  refine orderBy_congr fun a _ b _ => ?_
  simp only [ingredientOrder, Option.map_some, Prod.Lex.toLex_le_toLex]
  refine or_congr (WithBot.coe_lt_coe) (and_congr ?_ WithBot.coe_le_coe)
  exact Option.some_inj

theorem storedIngredients_eq (r : RecipeRow) :
    ((orderBy (fun i => ingredientOrder (some i)) tables.recipeIngredients).filter
      (ofRecipe r)).map storedIngredient = storedIngredients tables r.id := by
  rw [filter_orderBy, orderBy_ingredientOrder]
  rfl

/-- Within a recipe, no two ingredients have the same sort key. -/
theorem ingredientOrder_nodup (hv : Store.Valid tables sequences) (r : RecipeRow) :
    ((tables.recipeIngredients.filter (ofRecipe r)).map
      fun i => ingredientOrder (some i)).Nodup := by
  have hkeys := List.pairwise_map.mp hv.ingredientKeys
  refine List.pairwise_map.mpr ((hkeys.filter _).imp_of_mem fun {a b} ha hb hne heq => hne ?_)
  have hra := of_decide_eq_true (List.mem_filter.mp ha).2
  have hrb := of_decide_eq_true (List.mem_filter.mp hb).2
  have hpair : (some a.productName, some a.dimension) = (some b.productName, some b.dimension) :=
    toLex_inj.mp heq
  obtain ⟨hname, hdim⟩ : a.productName = b.productName ∧ a.dimension = b.dimension := by
    simpa using hpair
  simp only [IngredientRow.key, hra, hrb, hname, hdim]

/-- A condition on recipes is applied before the join, and the sorted join is regrouped into the
recipes that satisfy it, sorted by name. -/
theorem fetch_filtered (hv : Store.Valid tables sequences) (p : RecipeRow → Bool) :
    (((orderBy (joinKey (fun r : RecipeRow => r.name) ingredientOrder)
      ((recipesWithIngredients tables).filter fun row => p row.1)).map joinedColumns).foldl
        fetchRow {}).recipes =
      (orderBy (fun r : RecipeRow => r.name) (tables.recipes.filter p)).map
        (storedRecipe tables) := by
  have hnames : ((tables.recipes.filter p).map fun r => r.name).Nodup :=
    hv.recipeNames.sublist (List.Sublist.map _ List.filter_sublist)
  have hids : ((tables.recipes.filter p).map fun r => r.id).Nodup :=
    hv.recipeIds.sublist (List.Sublist.map _ List.filter_sublist)
  have hsorted : ((orderBy (fun r : RecipeRow => r.name) (tables.recipes.filter p)).map
      fun r => r.id).Nodup := ((orderBy_perm _ _).map _).nodup_iff.mpr hids
  have hjoin : recipesWithIngredients tables =
    leftJoin ofRecipe tables.recipes tables.recipeIngredients := rfl
  rw [hjoin, filter_leftJoin, orderBy_leftJoin hnames fun r _ => ingredientOrder_nodup hv r,
    foldl_fetchRow_leftJoin _ _ hsorted]
  · simp only [List.nil_append]
    refine List.map_congr_left fun r _ => ?_
    rw [storedRecipe, ← storedIngredients_eq]
  · intro r hr heq
    have hr := (mem_orderBy _).mp hr
    have := (hv.recipeIdRange r (List.mem_filter.mp hr).1).1
    simp only at heq
    omega

theorem selectAllRecipes_fetch (hv : Store.Valid tables sequences) (bound : Bindings) :
    ((kSelectAllRecipesWithIngredients bound tables).foldl fetchRow {}).recipes =
      storedRecipes tables := by
  have := fetch_filtered hv fun _ => true
  simp only [List.filter_true] at this
  exact this

/-! ## One recipe -/

/-- Two stored recipes with one id are the same. -/
theorem recipe_eq_of_id (hv : Store.Valid tables sequences) {r r' : RecipeRow}
    (hr : r ∈ tables.recipes) (hr' : r' ∈ tables.recipes) (h : r.id = r'.id) : r = r' :=
  List.inj_on_of_nodup_map hv.recipeIds hr hr' h

theorem mem_storedRecipes {recipe : Recipe} :
    recipe ∈ storedRecipes tables ↔ ∃ r ∈ tables.recipes, storedRecipe tables r = recipe := by
  simp [storedRecipes]

/-- The recipe `GetAllRecipes` lists under an id. -/
def findRecipe (recipes : List Recipe) (recipeId : Int) : Option Recipe :=
  recipes.find? fun recipe => decide (recipe.id = some recipeId)

theorem findRecipe_stored (hv : Store.Valid tables sequences) {r : RecipeRow}
    (hr : r ∈ tables.recipes) :
    findRecipe (storedRecipes tables) r.id = some (storedRecipe tables r) := by
  cases hf : findRecipe (storedRecipes tables) r.id with
  | none =>
      have hno := List.find?_eq_none.mp hf (storedRecipe tables r)
        (mem_storedRecipes.mpr ⟨r, hr, rfl⟩)
      simp [storedRecipe] at hno
  | some recipe =>
      obtain ⟨r', hr', rfl⟩ := mem_storedRecipes.mp (List.mem_of_find?_eq_some hf)
      have hid : r'.id = r.id := by simpa [storedRecipe] using List.find?_some hf
      rw [recipe_eq_of_id hv hr' hr hid]

theorem findRecipe_absent {recipeId : Int} (h : ∀ r ∈ tables.recipes, r.id ≠ recipeId) :
    findRecipe (storedRecipes tables) recipeId = none := by
  refine List.find?_eq_none.mpr fun recipe hmem => ?_
  obtain ⟨r, hr, rfl⟩ := mem_storedRecipes.mp hmem
  simpa [storedRecipe] using h r hr

/-- For one recipe only the second sort key counts. -/
theorem selectRecipeById_fetch (hv : Store.Valid tables sequences) (recipeId : Int) :
    ((kSelectRecipeByIdWithIngredients (params [.integer recipeId]) tables).foldl
      fetchRow {}).recipes.head? = findRecipe (storedRecipes tables) recipeId := by
  have hp1 : params [.integer recipeId] 1 = .integer recipeId := rfl
  have hjoin : (recipesWithIngredients tables).filter
      (fun row => decide (row.1.id = recipeId)) =
      leftJoin ofRecipe (tables.recipes.filter fun r => decide (r.id = recipeId))
        tables.recipeIngredients :=
    filter_leftJoin fun r : RecipeRow => decide (r.id = recipeId)
  simp only [kSelectRecipeByIdWithIngredients, hp1, Value.eq_integer, hjoin]
  by_cases hex : ∃ r ∈ tables.recipes, r.id = recipeId
  · obtain ⟨r, hr, rfl⟩ := hex
    have hkeys : orderBy (fun row : RecipeRow × Option IngredientRow => ingredientOrder row.2)
        (leftJoin ofRecipe [r] tables.recipeIngredients) =
        orderBy (joinKey (fun r : RecipeRow => r.name) ingredientOrder)
          (leftJoin ofRecipe [r] tables.recipeIngredients) := by
      refine orderBy_congr fun x hx y hy => ?_
      have hxr : x.1 = r := List.mem_singleton.mp (mem_leftJoin.mp hx).1
      have hyr : y.1 = r := List.mem_singleton.mp (mem_leftJoin.mp hy).1
      simp [joinKey, Prod.Lex.toLex_le_toLex, hxr, hyr]
    rw [filter_key_eq hv.recipeIds hr, hkeys,
      orderBy_leftJoin (by simp) fun r _ => ingredientOrder_nodup hv r,
      foldl_fetchRow_leftJoin _ _ (by simp [orderBy]), findRecipe_stored hv hr]
    · simp only [orderBy, List.insertionSort_cons, List.insertionSort_nil, List.orderedInsert_nil]
      simp only [List.nil_append, List.map_cons, List.map_nil, List.head?_cons]
      rw [storedRecipe, ← storedIngredients_eq]
      rfl
    · have := (hv.recipeIdRange r hr).1
      simp [orderBy]
      omega
  · have hnone : tables.recipes.filter (fun r => decide (r.id = recipeId)) = [] :=
      List.filter_eq_nil_iff.mpr fun r hr hid => hex ⟨r, hr, of_decide_eq_true hid⟩
    rw [hnone, findRecipe_absent fun r hr hid => hex ⟨r, hr, hid⟩]
    rfl

theorem foldl_append_map {α β : Type} (f : α → β) (rows : List α) (start : List β) :
    rows.foldl (fun acc row => acc ++ [f row]) start = start ++ rows.map f := by
  rw [List.foldl_append_eq_append, ← List.flatMap_def, ← List.map_eq_flatMap]

theorem selectRecipeIngredients_fold (recipeId : Int) :
    (kSelectRecipeIngredientsByRecipeId (params [.integer recipeId]) tables).foldl
      (fun ingredients row => ingredients ++ [readIngredient row 0]) [] =
      storedIngredients tables recipeId := by
  have hp1 : params [.integer recipeId] 1 = .integer recipeId := rfl
  simp only [kSelectRecipeIngredientsByRecipeId, hp1, Value.eq_integer, orderBy_ingredientOrder]
  rw [foldl_append_map, List.nil_append, List.map_map]
  rfl

/-- A recipe lists its ingredients, and without the recipe there are none. -/
theorem storedIngredients_eq_findRecipe (hv : Store.Valid tables sequences) (recipeId : Int) :
    storedIngredients tables recipeId =
      ((findRecipe (storedRecipes tables) recipeId).map fun recipe => recipe.ingredients).getD
        [] := by
  by_cases hex : ∃ r ∈ tables.recipes, r.id = recipeId
  · obtain ⟨r, hr, rfl⟩ := hex
    rw [findRecipe_stored hv hr]
    rfl
  · have hnone : tables.recipeIngredients.filter (fun row => decide (row.recipeId = recipeId)) =
        [] := by
      refine List.filter_eq_nil_iff.mpr fun i hi hid => hex ?_
      obtain ⟨r, hr, hrid⟩ := hv.ingredientRecipes i hi
      exact ⟨r, hr, hrid.trans (of_decide_eq_true hid)⟩
    rw [findRecipe_absent fun r hr hid => hex ⟨r, hr, hid⟩, storedIngredients, hnone]
    rfl

/-! ## Exactness of the answers -/

/-- A stored ingredient row loses nothing on its way out. -/
theorem storedIngredient_fields (hv : Store.Valid tables sequences) {i : IngredientRow}
    (hi : i ∈ tables.recipeIngredients) :
    (storedIngredient i).dimension.code = i.dimension ∧
      (storedIngredient i).amount.toInt = i.requiredAmountBase := by
  obtain ⟨⟨hlo, hhi⟩, d, hd⟩ := hv.ingredientValues i hi
  constructor
  · have hround : (Int32.ofInt i.dimension).toInt = i.dimension := by
      rw [← hd, Dimension.toInt_ofInt_code]
    show (Dimension.ofCode (Int32.ofInt i.dimension).toInt).code = i.dimension
    rw [hround, ← hd, Dimension.ofCode_code]
  · exact Int32.toInt_ofInt_of_le (by omega) (by omega)

theorem mem_storedIngredients {recipeId : Int} {ingredient : Product} :
    ingredient ∈ storedIngredients tables recipeId ↔
      ∃ i ∈ tables.recipeIngredients, i.recipeId = recipeId ∧ storedIngredient i = ingredient := by
  simp [storedIngredients, and_assoc]

/-- A list of recipes that says what the tables say: each stored recipe once, in name order, with
its ingredient rows by product name and dimension. -/
structure Lists (tables : Tables) (recipes : List Recipe) : Prop where
  increasing : recipes.Pairwise fun a b => a.name < b.name
  once : (recipes.map fun r => (r.id, r.name)).Perm
    (tables.recipes.map fun r => (some r.id, r.name))
  ingredients : ∀ recipe ∈ recipes, ∀ recipeId, recipe.id = some recipeId →
    recipe.ingredients.map (fun i => (i.name, i.dimension.code, i.amount.toInt)) =
      (orderBy (fun i : IngredientRow => toLex (i.productName, i.dimension))
        (tables.recipeIngredients.filter fun i => decide (i.recipeId = recipeId))).map
        fun i => (i.productName, i.dimension, i.requiredAmountBase)

theorem storedRecipes_lists (hv : Store.Valid tables sequences) :
    Lists tables (storedRecipes tables) where
  increasing := List.pairwise_map.mpr (orderBy_pairwise_lt _ hv.recipeNames)
  once := by
    rw [storedRecipes, List.map_map]
    exact (orderBy_perm _ _).map _
  ingredients := by
    intro recipe hmem recipeId hid
    obtain ⟨r, -, rfl⟩ := mem_storedRecipes.mp hmem
    obtain rfl : r.id = recipeId := by simpa [storedRecipe] using hid
    show (storedIngredients tables r.id).map _ = _
    rw [storedIngredients, List.map_map]
    refine List.map_congr_left fun i hi => ?_
    obtain ⟨hdim, hamount⟩ :=
      storedIngredient_fields hv (List.mem_filter.mp ((mem_orderBy _).mp hi)).1
    simp only [Function.comp, hdim, hamount]
    rfl

/-! ## Cookable recipes -/

theorem cookable_eq_true {recipe : Recipe} :
    cookable tables recipe = true ↔ ∀ i ∈ tables.recipeIngredients, recipe.id = some i.recipeId →
      ∃ p ∈ tables.products, p.name = i.productName ∧ p.dimension = i.dimension ∧
        i.requiredAmountBase ≤ p.amountBase := by
  simp only [cookable, List.all_eq_true, Bool.or_eq_true, List.any_eq_true, Bool.and_eq_true,
    decide_eq_true_eq, and_assoc, imp_iff_not_or, ne_eq]

/-- A joined row speaks against a recipe when it belongs to it and shows no product, or one of
which there is too little. -/
theorem lacking_eq_false {r : RecipeRow} {i : IngredientRow} {o : Option ProductRow} :
    (lacking r (i, o)).holds = false ↔
      (r.id = i.recipeId → ∃ p, o = some p ∧ i.requiredAmountBase ≤ p.amountBase) := by
  rw [eq_comm (a := r.id)]
  cases o with
  | none => by_cases hid : i.recipeId = r.id <;>
      simp [lacking, Truth.holds_and, Truth.holds_or, hid]
  | some p => by_cases hid : i.recipeId = r.id <;>
      simp [lacking, Truth.holds_and, Truth.holds_or, hid]

/-- The inner query of the cookable recipes finds nothing exactly when everything is in stock. A
missing product shows as the NULL row, and the uniqueness of products makes the one the join found
the one that has enough. -/
theorem notExists_lacking (hv : Store.Valid tables sequences) {r : RecipeRow} :
    notExists (fun x => (lacking r x).holds) (ingredientsWithStock tables) =
      cookable tables (storedRecipe tables r) := by
  rw [Bool.eq_iff_iff, notExists_eq_true, cookable_eq_true]
  simp only [storedRecipe, Option.some_inj]
  constructor
  · intro hno i hi hid
    -- some joined row has `i` on its left; it is not the NULL row
    obtain ⟨o, ho⟩ := exists_mem_leftJoin hi
    obtain ⟨p, rfl, hle⟩ := lacking_eq_false.mp (hno (i, o) ho) hid
    obtain ⟨-, hp, hon⟩ := mem_block.mp (mem_leftJoin.mp ho).2
    simp only [Bool.and_eq_true, decide_eq_true_eq] at hon
    exact ⟨p, hp, hon.1, hon.2, hle⟩
  · rintro hstock ⟨i, o⟩ ho
    obtain ⟨hi, hblock⟩ := mem_leftJoin.mp ho
    refine lacking_eq_false.mpr fun hid => ?_
    obtain ⟨p, hp, hname, hdim, hle⟩ := hstock i hi hid
    cases o with
    | none =>
        have := (mem_block.mp hblock).2 p hp
        simp [hname, hdim] at this
    | some p' =>
        obtain ⟨-, hp', hon⟩ := mem_block.mp hblock
        simp only [Bool.and_eq_true, decide_eq_true_eq] at hon
        have hsame : p' = p := List.inj_on_of_nodup_map hv.productKeys hp' hp
          (by simp only [ProductRow.key, hon.1, hon.2, hname, hdim])
        exact ⟨p', rfl, hsame ▸ hle⟩

theorem selectCookableRecipes_fetch (hv : Store.Valid tables sequences) (bound : Bindings) :
    ((kSelectCookableRecipesWithIngredients bound tables).foldl fetchRow {}).recipes =
      (storedRecipes tables).filter (cookable tables) := by
  have hfetch := fetch_filtered hv fun r =>
    notExists (fun x => (lacking r x).holds) (ingredientsWithStock tables)
  refine hfetch.trans ?_
  rw [← filter_orderBy, storedRecipes, List.filter_map]
  congr 1
  exact List.filter_congr fun r _ => notExists_lacking hv

/-- A recipe without ingredients needs nothing. -/
theorem cookable_of_no_ingredients {recipe : Recipe} (hmem : recipe ∈ storedRecipes tables)
    (h : recipe.ingredients = []) : cookable tables recipe = true := by
  obtain ⟨r, -, rfl⟩ := mem_storedRecipes.mp hmem
  refine cookable_eq_true.mpr fun i hi hid => ?_
  have hin : storedIngredient i ∈ storedIngredients tables r.id :=
    mem_storedIngredients.mpr ⟨i, hi, (Option.some_inj.mp hid).symm, rfl⟩
  rw [show storedIngredients tables r.id = [] from h] at hin
  simp at hin

/-- Even an amount of zero needs the product to be there. -/
theorem not_cookable_of_missing (hv : Store.Valid tables sequences) {recipe : Recipe}
    (hmem : recipe ∈ storedRecipes tables) {ingredient : Product}
    (hin : ingredient ∈ recipe.ingredients)
    (h : ∀ p ∈ tables.products, p.name = ingredient.name →
      p.dimension ≠ ingredient.dimension.code) : cookable tables recipe = false := by
  obtain ⟨r, -, rfl⟩ := mem_storedRecipes.mp hmem
  obtain ⟨i, hi, hid, rfl⟩ := mem_storedIngredients.mp hin
  refine Bool.eq_false_iff.mpr fun hcook => ?_
  obtain ⟨p, hp, hname, hdim, -⟩ := cookable_eq_true.mp hcook i hi (congrArg some hid.symm)
  exact h p hp hname (hdim.trans (storedIngredient_fields hv hi).1.symm)

end

end RecipesCore.Db
