import RecipesCore.App.Identity
import RecipesCore.App.Kitchen

/-!
# The entries behind the tables

What the tables say under an id, as a read would show it: `productEntry` and `recipeEntry`. A write
that succeeds changes the entry of its id and no other. The readers list the entries, and a valid
store has them in two catalogues.
-/

namespace RecipesCore.App

open RecipesCore.Db RecipesCore.Db.DBManager
open RecipesCore.Logic RecipesCore.Logic.Program
open RecipesCore.Relational
open RecipesCore.Sqlite
open RecipesCore.Types

def productEntry (tables : Tables) (productId : Int) : Option Product :=
  (productAt tables productId).map fun row => readProduct row.columns

def recipeEntry (tables : Tables) (recipeId : Int) : Option Recipe :=
  (recipeAt tables recipeId).map readRecipe

section

variable {tables tables' : Tables} {sequences sequences' : Sequences} {productId recipeId : Int}
  {product : Product} {recipe : Recipe}

/-! ## Entries and rows -/

/-- An entry is the product that is read off the row. -/
theorem productEntry_eq_some (hv : Store.Valid tables sequences) :
    productEntry tables productId = some product ↔
      ∃ row ∈ tables.products, row.id = productId ∧ readProduct row.columns = product := by
  rw [productEntry, Option.map_eq_some_iff]
  constructor
  · rintro ⟨row, hat, rfl⟩
    obtain ⟨hrow, hid⟩ := (productAt_eq_some hv).mp hat
    exact ⟨row, hrow, hid, rfl⟩
  · rintro ⟨row, hrow, hid, rfl⟩
    exact ⟨row, (productAt_eq_some hv).mpr ⟨hrow, hid⟩, rfl⟩

/-- An entry is the recipe of the row, with its ingredients. -/
theorem recipeEntry_eq_some (hv : Store.Valid tables sequences) :
    recipeEntry tables recipeId = some recipe ↔
      ∃ row ∈ tables.recipes, row.id = recipeId ∧ storedRecipe tables row = recipe := by
  rw [recipeEntry, Option.map_eq_some_iff]
  constructor
  · rintro ⟨rows, hat, rfl⟩
    obtain ⟨hrow, hid, hingredients⟩ := (recipeAt_eq_some hv).mp hat
    refine ⟨rows.1, hrow, hid, ?_⟩
    rw [readRecipe, hingredients, ← hid]
    rfl
  · rintro ⟨row, hrow, rfl, rfl⟩
    exact ⟨(row, ingredientsOf tables row.id), (recipeAt_eq_some hv).mpr ⟨hrow, rfl, rfl⟩, rfl⟩

theorem productEntry_eq_none :
    productEntry tables productId = none ↔ ¬ HasProduct productId tables := by
  rw [productEntry, Option.map_eq_none_iff, productAt_eq_none]
  simp [HasProduct]

theorem recipeEntry_eq_none : recipeEntry tables recipeId = none ↔ ¬ HasRecipe recipeId tables := by
  rw [recipeEntry, Option.map_eq_none_iff, recipeAt_eq_none]
  simp [HasRecipe]

/-- The readers find the entry. -/
theorem findProduct_eq_productEntry : findProduct tables productId = productEntry tables productId := by
  rw [findProduct, List.head?_filter]
  rfl

theorem findRecipe_eq_recipeEntry (hv : Store.Valid tables sequences) :
    findRecipe (storedRecipes tables) recipeId = recipeEntry tables recipeId := by
  cases hentry : recipeEntry tables recipeId with
  | none =>
      apply findRecipe_absent
      intro row hrow hid
      exact recipeEntry_eq_none.mp hentry ⟨row, hrow, hid⟩
  | some recipe =>
      obtain ⟨row, hrow, rfl, rfl⟩ := (recipeEntry_eq_some hv).mp hentry
      exact findRecipe_stored hv hrow

/-- What is read of a stored product has the key and the amount of its row. -/
theorem readProduct_fields (hv : Store.Valid tables sequences) {row : ProductRow}
    (hrow : row ∈ tables.products) :
    productKey (readProduct row.columns) = row.key ∧
      (readProduct row.columns).amount.toInt = row.amountBase := by
  obtain ⟨⟨hlo, hhi⟩, d, hd⟩ := hv.productValues row hrow
  constructor
  · have hdimension : Dimension.ofCode (Value.integer row.dimension).getInt.toInt = d := by
      rw [← hd]
      exact d.ofCode_stored
    show (row.name, (Dimension.ofCode (Value.integer row.dimension).getInt.toInt).code) = row.key
    rw [hdimension, hd]
    rfl
  · show (Int32.ofInt row.amountBase).toInt = row.amountBase
    exact Int32.toInt_ofInt_of_le (by omega) (by omega)

/-! ## Rows of other ids -/

theorem productAt_congr {id : Int}
    (h : (tables'.products.filter fun row => decide (row.id = id)) =
      tables.products.filter fun row => decide (row.id = id)) :
    productAt tables' id = productAt tables id := by
  rw [productAt, productAt, ← List.head?_filter, ← List.head?_filter, h]

theorem recipeAt_congr {id : Int}
    (hrecipes : (tables'.recipes.filter fun row => decide (row.id = id)) =
      tables.recipes.filter fun row => decide (row.id = id))
    (hingredients : ingredientsOf tables' id = ingredientsOf tables id) :
    recipeAt tables' id = recipeAt tables id := by
  rw [recipeAt, recipeAt, ← List.head?_filter, ← List.head?_filter, hrecipes, hingredients]

/-- Rows are the same elsewhere where they are the same without those of another id. -/
theorem filter_of_deleteWhere_eq {α : Type} {idOf : α → Int} {rows rows' : List α} {id other : Int}
    (hne : other ≠ id) (h : deleteWhere (fun row => decide (idOf row = id)) rows' =
      deleteWhere (fun row => decide (idOf row = id)) rows) :
    (rows'.filter fun row => decide (idOf row = other)) =
      rows.filter fun row => decide (idOf row = other) := by
  have hapart : ∀ row : α, decide (idOf row = id) = true → decide (idOf row = other) = false := by
    intro row hid
    apply decide_eq_false
    intro hother
    exact hne (hother.symm.trans (of_decide_eq_true hid))
  rw [← filter_deleteWhere hapart, h, filter_deleteWhere hapart]

theorem sameElsewhere_productAt {target : Target} (h : target.SameElsewhere tables tables')
    (hne : target ≠ .product productId) : productAt tables' productId = productAt tables productId := by
  cases target with
  | product id =>
      have hid : productId ≠ id := by
        rintro rfl
        exact hne rfl
      exact productAt_congr (filter_of_deleteWhere_eq hid h.1)
  | recipe id => exact productAt_congr (by rw [h.1])

theorem sameElsewhere_recipeAt {target : Target} (h : target.SameElsewhere tables tables')
    (hne : target ≠ .recipe recipeId) : recipeAt tables' recipeId = recipeAt tables recipeId := by
  cases target with
  | product id => exact recipeAt_congr (by rw [h.2.1]) (by rw [ingredientsOf, ingredientsOf, h.2.2])
  | recipe id =>
      have hid : recipeId ≠ id := by
        rintro rfl
        exact hne rfl
      exact recipeAt_congr (filter_of_deleteWhere_eq hid h.2.1) (filter_of_deleteWhere_eq hid h.2.2)

/-! ## The two catalogues -/

/-- The kitchen that a valid store is. -/
def Kitchen.ofStore (hv : Store.Valid tables sequences) : Kitchen where
  products :=
    { entry := productEntry tables
      issued := sequences.products
      labelled := by
        intro productId product h
        obtain ⟨row, -, rfl, rfl⟩ := (productEntry_eq_some hv).mp h
        rfl
      counted := by
        intro productId product h
        obtain ⟨row, hrow, rfl, -⟩ := (productEntry_eq_some hv).mp h
        exact (hv.productIdRange row hrow).2
      unique := by
        intro productId productId' product product' h h' hkey
        obtain ⟨row, hrow, rfl, rfl⟩ := (productEntry_eq_some hv).mp h
        obtain ⟨row', hrow', rfl, rfl⟩ := (productEntry_eq_some hv).mp h'
        rw [(readProduct_fields hv hrow).1, (readProduct_fields hv hrow').1] at hkey
        rw [List.inj_on_of_nodup_map hv.productKeys hrow hrow' hkey] }
  recipes :=
    { entry := recipeEntry tables
      issued := sequences.recipes
      labelled := by
        intro recipeId recipe h
        obtain ⟨row, -, rfl, rfl⟩ := (recipeEntry_eq_some hv).mp h
        rfl
      counted := by
        intro recipeId recipe h
        obtain ⟨row, hrow, rfl, -⟩ := (recipeEntry_eq_some hv).mp h
        exact (hv.recipeIdRange row hrow).2
      unique := by
        intro recipeId recipeId' recipe recipe' h h' hname
        obtain ⟨row, hrow, rfl, rfl⟩ := (recipeEntry_eq_some hv).mp h
        obtain ⟨row', hrow', rfl, rfl⟩ := (recipeEntry_eq_some hv).mp h'
        rw [List.inj_on_of_nodup_map hv.recipeNames hrow hrow' hname] }

end

/-! ## What a write makes of the entries -/

section

variable {α : Type} {m m' : DBManager} {op : Operation} {f : α → Returned} {body : DbM α}
  {result : Except DbException α} {productId recipeId : Int} {product : Product} {recipe : Recipe}

/-- The store is valid still, and no id is uncounted. -/
structure Onward (m m' : DBManager) : Prop where
  rests : Rests Store.Valid m'
  products : m.db.sequences.products ≤ m'.db.sequences.products
  recipes : m.db.sequences.recipes ≤ m'.db.sequences.recipes

theorem Onward.refl (hrest : Rests Store.Valid m) : Onward m m := ⟨hrest, le_rfl, le_rfl⟩

theorem Onward.read {m'' : DBManager} (h : Onward m m') (hdb : m''.db = m'.db)
    (hsaved : m''.saved = m'.saved) : Onward m m'' := by
  obtain ⟨hrest, hproducts, hrecipes⟩ := h
  rw [← hdb] at hproducts hrecipes
  refine ⟨⟨?_, hsaved.trans hrest.2⟩, hproducts, hrecipes⟩
  rw [hdb]
  exact hrest.1

/-- What an operation keeps, its body keeps. -/
theorem body_keeps {P : DBManager → Prop} (hop : op.run = f <$> body) (h : Keeps P op.run)
    (hm : P m) (hrun : runOn body m = (result, m')) : P m' := by
  have hbody : Keeps P body := by
    apply Triple.of_map (f := f)
    rw [← hop]
    exact h
  have hafter := hbody.after hm
  rwa [hrun] at hafter

theorem body_onward (op : Operation) (hop : op.run = f <$> body) (hrest : Rests Store.Valid m)
    (hrun : runOn body m = (result, m')) : Onward m m' := by
  have hkept : Keeps (Rests fun tables sequences => Store.Valid tables sequences ∧
      m.db.sequences.products ≤ sequences.products ∧
      m.db.sequences.recipes ≤ sequences.recipes) op.run := by
    apply op.run_preserves
    intro w values gap db db' hissued hI hsql
    obtain ⟨hv, hproducts, hrecipes⟩ := hI
    obtain ⟨hproducts', hrecipes'⟩ := hissued.sequences_le hsql
    exact ⟨hissued.valid hsql hv, hproducts.trans hproducts', hrecipes.trans hrecipes'⟩
  obtain ⟨⟨hv, hproducts, hrecipes⟩, hsaved⟩ :=
    body_keeps hop hkept ⟨⟨hrest.1, le_rfl, le_rfl⟩, hrest.2⟩ hrun
  exact ⟨⟨hv, hsaved⟩, hproducts, hrecipes⟩

theorem body_sameElsewhere {target : Target} (htarget : op.target = some target)
    (hop : op.run = f <$> body) (hrest : Rests Store.Valid m)
    (hrun : runOn body m = (result, m')) : target.SameElsewhere m.db.tables m'.db.tables :=
  (body_keeps hop (op.run_sameElsewhere htarget m.db.tables)
    ⟨Target.SameElsewhere.refl _ _, hrest.2⟩ hrun).1

theorem body_otherTables (hop : op.run = f <$> body) (hrest : Rests Store.Valid m)
    (hrun : runOn body m = (result, m')) : OtherTables op.onProducts m.db.tables m'.db.tables :=
  (body_keeps hop (op.run_otherTables m.db.tables) ⟨OtherTables.refl _ _, hrest.2⟩ hrun).1

end

/-! ### Products -/

section

variable {m m' : DBManager} {productId : Int} {product : Product}

theorem otherTables_recipeEntry {tables tables' : Tables} (h : OtherTables true tables tables') :
    recipeEntry tables' = recipeEntry tables := by
  obtain ⟨hrecipes, hingredients⟩ : tables'.recipes = tables.recipes ∧
    tables'.recipeIngredients = tables.recipeIngredients := h
  funext id
  have hsame : recipeAt tables' id = recipeAt tables id :=
    recipeAt_congr (by rw [hrecipes]) (by rw [ingredientsOf, ingredientsOf, hingredients])
  rw [recipeEntry, recipeEntry, hsame]

theorem otherTables_productEntry {tables tables' : Tables} (h : OtherTables false tables tables') :
    productEntry tables' = productEntry tables := by
  have hproducts : tables'.products = tables.products := h
  funext id
  have hsame : productAt tables' id = productAt tables id := productAt_congr (by rw [hproducts])
  rw [productEntry, productEntry, hsame]

/-- The row of a product shows it as it is kept. -/
theorem productEntry_of_mem {tables : Tables} {sequences : Sequences}
    (hv : Store.Valid tables sequences) (hrow : productRow productId product ∈ tables.products) :
    productEntry tables productId = some (keptProduct product productId) :=
  (productEntry_eq_some hv).mpr ⟨_, hrow, rfl, readProduct_written⟩

/-- **A create adds an entry.** -/
theorem createProduct_entries (hrest : Rests Store.Valid m)
    (h : runOn (createProduct product) m = (.ok productId, m')) :
    m.db.sequences.products < productId ∧ productId ≤ m'.db.sequences.products ∧
      productEntry m'.db.tables = Function.update (productEntry m.db.tables) productId
        (some (keptProduct product productId)) ∧
      recipeEntry m'.db.tables = recipeEntry m.db.tables := by
  have hop : (Operation.createProduct product).run = Returned.id <$> createProduct product := rfl
  have honward := body_onward _ hop hrest h
  obtain ⟨htables, hnew, -⟩ := createProduct_stored h
  have hrow : productRow productId product ∈ m'.db.tables.products := by
    rw [htables]
    exact List.mem_append_right _ (List.mem_singleton_self _)
  refine ⟨hnew, (honward.rests.1.productIdRange _ hrow).2, ?_,
    otherTables_recipeEntry (body_otherTables hop hrest h)⟩
  funext other
  by_cases hother : other = productId
  · subst hother
    rw [Function.update_self, productEntry_of_mem honward.rests.1 hrow]
  · rw [Function.update_of_ne hother, productEntry, productEntry]
    have hfilter : (m'.db.tables.products.filter fun row => decide (row.id = other)) =
        m.db.tables.products.filter fun row => decide (row.id = other) := by
      rw [htables]
      exact filter_append_new (decide_eq_false fun hid => hother hid.symm)
    rw [productAt_congr hfilter]

/-- **An update replaces the entry of its id.** -/
theorem updateProduct_entries (hrest : Rests Store.Valid m)
    (h : runOn (updateProduct productId product) m = (.ok true, m')) :
    (∃ old, productEntry m.db.tables productId = some old) ∧
      productEntry m'.db.tables = Function.update (productEntry m.db.tables) productId
        (some (keptProduct product productId)) ∧
      recipeEntry m'.db.tables = recipeEntry m.db.tables := by
  have hop : (Operation.updateProduct productId product).run =
    Returned.bool <$> updateProduct productId product := rfl
  have honward := body_onward _ hop hrest h
  obtain ⟨hex, htables⟩ := updateProduct_stored h
  have hrow : productRow productId product ∈ m'.db.tables.products := by
    obtain ⟨row, hrow, rfl⟩ := hex
    rw [htables]
    exact mem_updateWhere.mpr (Or.inr ⟨row, hrow, decide_eq_true rfl, rfl⟩)
  refine ⟨?_, ?_, otherTables_recipeEntry (body_otherTables hop hrest h)⟩
  · obtain ⟨row, hrow, hid⟩ := hex
    exact ⟨_, (productEntry_eq_some hrest.1).mpr ⟨row, hrow, hid, rfl⟩⟩
  · funext other
    by_cases hother : other = productId
    · subst hother
      rw [Function.update_self, productEntry_of_mem honward.rests.1 hrow]
    · have hne : Target.product productId ≠ .product other := fun heq =>
        hother (Target.product.inj heq).symm
      rw [Function.update_of_ne hother, productEntry, productEntry,
        sameElsewhere_productAt (body_sameElsewhere rfl hop hrest h) hne]

/-- **A delete removes the entry of its id.** -/
theorem deleteProduct_entries (hrest : Rests Store.Valid m)
    (h : runOn (deleteProduct productId) m = (.ok true, m')) :
    productEntry m.db.tables productId ≠ none ∧
      productEntry m'.db.tables = Function.update (productEntry m.db.tables) productId none ∧
      recipeEntry m'.db.tables = recipeEntry m.db.tables := by
  have hop : (Operation.deleteProduct productId).run = Returned.bool <$> deleteProduct productId :=
    rfl
  have hpre := And.intro hrest.1 (And.intro (Eq.refl m.db.tables) (Eq.refl m.db.sequences))
  refine ⟨?_, ?_, otherTables_recipeEntry (body_otherTables hop hrest h)⟩
  · intro hnone
    exact productEntry_eq_none.mp hnone ((deleteProduct_exact.of_ok hpre h).mp rfl)
  · funext other
    by_cases hother : other = productId
    · subst hother
      rw [Function.update_self, productEntry_eq_none, deleteProduct_stored h]
      rintro ⟨row, hrow, hid⟩
      exact of_decide_eq_false (mem_deleteWhere.mp hrow).2 hid
    · have hne : Target.product productId ≠ .product other := fun heq =>
        hother (Target.product.inj heq).symm
      rw [Function.update_of_ne hother, productEntry, productEntry,
        sameElsewhere_productAt (body_sameElsewhere rfl hop hrest h) hne]

end

/-! ### Recipes -/

section

variable {m m' : DBManager} {recipeId : Int} {recipe : Recipe}

/-- A recipe that was written shows as it is kept. -/
theorem recipeEntry_of_written {tables : Tables} {sequences : Sequences}
    (hv : Store.Valid tables sequences) (h : Written recipe recipeId tables) :
    recipeEntry tables recipeId =
      some (keptRecipe recipe (storedIngredients tables recipeId) recipeId) :=
  (recipeEntry_eq_some hv).mpr ⟨_, h.holdsName, rfl, rfl⟩

/-- A new row behind the others. -/
def RowAdded (rows : List RecipeRow) (name : String) (recipeId : Int) (tables : Tables) : Prop :=
  tables.recipes = rows ++ [{ id := recipeId, name }]

theorem createRecipe_adds {rows : List RecipeRow} :
    Triple (fun m => m.db.tables.recipes = rows) (createRecipe recipe)
      (fun recipeId m => RowAdded rows recipe.name recipeId m.db.tables) (fun _ _ => True) := by
  rw [createRecipe_eq]
  apply transaction_commits_from (P := fun db => db.tables.recipes = rows)
    (Q := RowAdded rows recipe.name)
  apply Triple.bind (Q := fun _ m => RowAdded rows recipe.name m.db.lastInsertRowid m.db.tables)
  · apply (execBound_triple (J := fun db _ => db.tables.recipes = rows)).conseq (fun _ h => h) _
      (fun _ _ _ => trivial)
    intro _ m hm
    obtain ⟨gap, db, rfl, hsql⟩ := hm
    obtain ⟨id, -, -, hdb⟩ := createRecipe_effect.mp hsql
    rw [hdb]
    rfl
  · intro _
    refine Triple.bind
      (Q := fun recipeId (m : DBManager) => RowAdded rows recipe.name recipeId m.db.tables)
      (fun _ hm => hm) fun recipeId => ?_
    -- the ingredients are filled in beside the rows
    apply Triple.bind (Q := fun _ m => RowAdded rows recipe.name recipeId m.db.tables)
    · apply Triple.of_each
      intro m hm
      apply (replaceRecipeIngredients_beside recipe recipeId m.db.tables).conseq
      · intro s hs
        rw [hs]
        exact ⟨rfl, fun _ _ => Iff.rfl⟩
      · intro _ s hs
        exact hs.recipes.trans hm
      · exact fun _ _ _ => trivial
    · intro _
      exact commit_tables.bind fun _ => Triple.pure fun _ hm => Or.inl hm

/-- A create revises nothing. -/
theorem createRecipe_others (hrest : Rests Store.Valid m)
    (h : runOn (createRecipe recipe) m = (.ok recipeId, m')) {other : Int}
    (hne : other ≠ recipeId) : recipeAt m'.db.tables other = recipeAt m.db.tables other := by
  have hop : (Operation.createRecipe recipe).run = Returned.id <$> createRecipe recipe := rfl
  have hrun : runOn (Operation.createRecipe recipe).run m = (.ok (.id recipeId), m') := by
    rw [hop, map_eq_pure_bind, runOn_bind_ok h, runOn_pure]
  cases hat : recipeAt m.db.tables other with
  | none =>
      have hadded : m'.db.tables.recipes = _ := createRecipe_adds.of_ok rfl h
      rw [recipeAt_eq_none, hadded]
      intro row hrow
      rcases List.mem_append.mp hrow with hrow | hrow
      · exact recipeAt_eq_none.mp hat row hrow
      · rw [List.mem_singleton.mp hrow]
        exact hne.symm
  | some rows =>
      have hkept := Operation.recipe_kept hrest hat (.createRecipe recipe)
      rw [hrun] at hkept
      obtain ⟨-, hdelete⟩ | ⟨rows', hat', rfl | hrevised⟩ := hkept
      · cases hdelete
      · exact hat'
      · cases hrevised with
        | insertRecipe _ hinserts _ => exact hinserts.elim

theorem createRecipe_entries (hrest : Rests Store.Valid m)
    (h : runOn (createRecipe recipe) m = (.ok recipeId, m')) :
    m.db.sequences.recipes < recipeId ∧ recipeId ≤ m'.db.sequences.recipes ∧
      ∃ ingredients, Canonical recipe.ingredients ingredients ∧
        recipeEntry m'.db.tables = Function.update (recipeEntry m.db.tables) recipeId
          (some (keptRecipe recipe ingredients recipeId)) ∧
        productEntry m'.db.tables = productEntry m.db.tables := by
  have hop : (Operation.createRecipe recipe).run = Returned.id <$> createRecipe recipe := rfl
  have hrun : runOn (Operation.createRecipe recipe).run m = (.ok (.id recipeId), m') := by
    rw [hop, map_eq_pure_bind, runOn_bind_ok h, runOn_pure]
  have hv' := (body_onward _ hop hrest h).rests.1
  have hwritten := createRecipe_written.of_ok trivial h
  obtain ⟨id, hid, hnew, -⟩ := (Operation.run_createRecipe recipe).of_ok
    (And.intro (Eq.refl m.db.tables) (Eq.refl m.db.sequences)) hrun
  obtain rfl := Returned.id.inj hid
  refine ⟨hnew, (hv'.recipeIdRange _ hwritten.holdsName).2, _,
    canonical_storedIngredients hv' hwritten.filled, ?_,
    otherTables_productEntry (body_otherTables hop hrest h)⟩
  funext other
  by_cases hother : other = recipeId
  · subst hother
    rw [Function.update_self, recipeEntry_of_written hv' hwritten]
  · rw [Function.update_of_ne hother, recipeEntry, recipeEntry, createRecipe_others hrest h hother]

theorem updateRecipe_entries (hrest : Rests Store.Valid m)
    (h : runOn (updateRecipe recipeId recipe) m = (.ok true, m')) :
    (∃ old, recipeEntry m.db.tables recipeId = some old) ∧
      ∃ ingredients, Canonical recipe.ingredients ingredients ∧
        recipeEntry m'.db.tables = Function.update (recipeEntry m.db.tables) recipeId
          (some (keptRecipe recipe ingredients recipeId)) ∧
        productEntry m'.db.tables = productEntry m.db.tables := by
  have hop : (Operation.updateRecipe recipeId recipe).run =
    Returned.bool <$> updateRecipe recipeId recipe := rfl
  have hpre := And.intro hrest.1 (And.intro (Eq.refl m.db.tables) (Eq.refl m.db.sequences))
  have hv' := (body_onward _ hop hrest h).rests.1
  have hwritten := updateRecipe_written.of_ok trivial h rfl
  obtain ⟨row, hrow, hid⟩ := ((updateRecipe_exact recipe).of_ok hpre h).mp rfl
  refine ⟨⟨_, (recipeEntry_eq_some hrest.1).mpr ⟨row, hrow, hid, rfl⟩⟩, _,
    canonical_storedIngredients hv' hwritten.filled, ?_,
    otherTables_productEntry (body_otherTables hop hrest h)⟩
  funext other
  by_cases hother : other = recipeId
  · subst hother
    rw [Function.update_self, recipeEntry_of_written hv' hwritten]
  · have hne : Target.recipe recipeId ≠ .recipe other := fun heq =>
      hother (Target.recipe.inj heq).symm
    rw [Function.update_of_ne hother, recipeEntry, recipeEntry,
      sameElsewhere_recipeAt (body_sameElsewhere rfl hop hrest h) hne]

theorem deleteRecipe_entries (hrest : Rests Store.Valid m)
    (h : runOn (deleteRecipe recipeId) m = (.ok true, m')) :
    recipeEntry m.db.tables recipeId ≠ none ∧
      recipeEntry m'.db.tables = Function.update (recipeEntry m.db.tables) recipeId none ∧
      productEntry m'.db.tables = productEntry m.db.tables := by
  have hop : (Operation.deleteRecipe recipeId).run = Returned.bool <$> deleteRecipe recipeId := rfl
  have hrun : runOn (Operation.deleteRecipe recipeId).run m = (.ok (.bool true), m') := by
    rw [hop, map_eq_pure_bind, runOn_bind_ok h, runOn_pure]
  have hpre := And.intro hrest.1 (And.intro (Eq.refl m.db.tables) (Eq.refl m.db.sequences))
  refine ⟨?_, ?_, otherTables_productEntry (body_otherTables hop hrest h)⟩
  · intro hnone
    exact recipeEntry_eq_none.mp hnone ((deleteRecipe_exact.of_ok hpre h).mp rfl)
  · funext other
    by_cases hother : other = recipeId
    · subst hother
      rw [Function.update_self, recipeEntry, Operation.run_deleteRecipe.of_ok hpre hrun]
      rfl
    · have hne : Target.recipe recipeId ≠ .recipe other := fun heq =>
        hother (Target.recipe.inj heq).symm
      rw [Function.update_of_ne hother, recipeEntry, recipeEntry,
        sameElsewhere_recipeAt (body_sameElsewhere rfl hop hrest h) hne]

end

/-! ## What the readers list -/

section

variable {tables : Tables} {sequences : Sequences}

theorem mem_storedProducts (hv : Store.Valid tables sequences) {product : Product} :
    product ∈ storedProducts tables ↔ ∃ productId, productEntry tables productId = some product := by
  simp only [storedProducts, List.mem_map, mem_orderBy, productEntry_eq_some hv]
  constructor
  · rintro ⟨row, hrow, rfl⟩
    exact ⟨row.id, row, hrow, rfl, rfl⟩
  · rintro ⟨_, row, hrow, -, rfl⟩
    exact ⟨row, hrow, rfl⟩

theorem mem_storedRecipes_iff (hv : Store.Valid tables sequences) {recipe : Recipe} :
    recipe ∈ storedRecipes tables ↔ ∃ recipeId, recipeEntry tables recipeId = some recipe := by
  simp only [mem_storedRecipes, recipeEntry_eq_some hv]
  constructor
  · rintro ⟨row, hrow, rfl⟩
    exact ⟨row.id, row, hrow, rfl, rfl⟩
  · rintro ⟨_, row, hrow, -, rfl⟩
    exact ⟨row, hrow, rfl⟩

theorem storedProducts_nodup (hv : Store.Valid tables sequences) : (storedProducts tables).Nodup := by
  have hids : ((storedProducts tables).map Product.id).Nodup := by
    have hmap : (storedProducts tables).map Product.id =
        (orderBy (fun row : ProductRow => row.amountBase) tables.products).map
          (some ∘ ProductRow.id) := by
      rw [storedProducts, List.map_map]
      rfl
    rw [hmap, ← List.map_map]
    exact (((orderBy_perm _ _).map _).nodup_iff.mpr hv.productIds).map (Option.some_injective _)
  exact List.Nodup.of_map _ hids

theorem storedProducts_amounts (hv : Store.Valid tables sequences) :
    (storedProducts tables).Pairwise fun a b => a.amount.toInt ≤ b.amount.toInt := by
  apply List.pairwise_map.mpr
  apply (orderBy_pairwise _ _).imp_of_mem
  intro a b ha hb hle
  rw [mem_orderBy] at ha hb
  rwa [(readProduct_fields hv ha).2, (readProduct_fields hv hb).2]

theorem storedRecipes_names (hv : Store.Valid tables sequences) :
    (storedRecipes tables).Pairwise fun a b => a.name < b.name :=
  (storedRecipes_lists hv).increasing

end

end RecipesCore.App
