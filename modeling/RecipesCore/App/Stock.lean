import RecipesCore.App.Guarantees
import RecipesCore.Db.Ingredients
import RecipesCore.Db.Stock

/-!
# What is in stock

The results about products, for every state a run can reach: what is read where a product was
written, what a batch of inserts leaves, and which recipes a product operation can make cookable or
not.
-/

namespace RecipesCore.App

open RecipesCore.Db RecipesCore.Db.DBManager
open RecipesCore.Logic RecipesCore.Logic.Program
open RecipesCore.Relational
open RecipesCore.Sqlite
open RecipesCore.Types

/-! ## Products through their rows -/

/-- Both readers show `product` under its id. -/
structure ReadsBackAs (tables : Tables) (productId : Int) (product : Product) : Prop where
  byId : Reads tables (getProduct productId) (some { product with id := some productId })
  listed : ∃ products, Reads tables getAllProducts products ∧
    (products.filter fun p => decide (p.id = some productId)) =
      [{ product with id := some productId }]

section

variable {m m' : DBManager} {product : Product} {productId : Int}

/-- What is read where a product was written. -/
theorem readsBack_written (hrest : Rests Store.Valid m)
    (h : StoresProduct product m productId m') :
    ReadsBackAs m'.db.tables productId { product with dates := product.dates.readBack } := by
  have hv := h.valid hrest
  have hread := @readProduct_written productId product
  have hfind := findProduct_mem hv h.stored
  have hlist := storedProducts_filter hv h.stored
  rw [productRow_id, hread] at hfind hlist
  refine ⟨?_, storedProducts m'.db.tables, getAllProducts_reads _, hlist⟩
  rw [← hfind]
  exact getProduct_reads _ productId

/-- **A product comes back exactly when its dates have years of at most four digits; so does a date,
and two dates stay apart exactly when one of them comes back and is not day 0.** -/
theorem product_rows_round_trip_iff (h : managerRuns.Reachable m)
    (hdates : product.dates.Each Representable) (hstores : StoresProduct product m productId m') :
    (ReadsBackAs m'.db.tables productId product ↔ product.dates.Each FourDigitYear) ∧
    (∀ date, Representable date →
      (fromDateString (toDateString date) = date ↔ FourDigitYear date)) ∧
    ∀ date date', Representable date → Representable date' → date ≠ date' →
      (fromDateString (toDateString date) ≠ fromDateString (toDateString date') ↔
        (FourDigitYear date ∧ date ≠ 0) ∨ (FourDigitYear date' ∧ date' ≠ 0)) := by
  refine ⟨?_, fun date h => readBack_eq_self_iff h, fun date date' h h' => readBack_ne_iff h h'⟩
  have hback := readsBack_written (rests_valid h) hstores
  rw [← Dates.readBack_eq_self_iff hdates]
  constructor
  · intro hsame
    have hread := Option.some_inj.mp (hsame.byId.unique hback.byId)
    exact (congrArg Product.dates hread).symm
  · intro hsame
    rwa [hsame] at hback

end

/-- Salt that keeps until `date`. -/
def saltUntil (date : SysDays) : Product :=
  { name := "salt", amount := 5, dimension := .gramm, dates := { expiration := some date } }

/-- An empty store after `product` was created in it. -/
def afterStoring (product : Product) : DBManager :=
  (runOn (createProduct product) (({} : DBManager).withEnvironment [])).2

theorem storesProduct_afterStoring {product : Product}
    (h : (runOn (createProduct product) (({} : DBManager).withEnvironment [])).1 = .ok 1) :
    StoresProduct product {} 1 (afterStoring product) :=
  .create (Prod.ext h rfl)

/-- The first two days of the year 10000 are both read as day 0. -/
theorem dates_after_9999_are_lost :
    managerRuns.Reachable {} ∧ Representable 2932897 ∧ Representable 2932898 ∧
      StoresProduct (saltUntil 2932897) {} 1 (afterStoring (saltUntil 2932897)) ∧
      ¬ ReadsBackAs (afterStoring (saltUntil 2932897)).db.tables 1 (saltUntil 2932897) ∧
      fromDateString (toDateString 2932897) = 0 ∧ fromDateString (toDateString 2932898) = 0 := by
  refine ⟨.init rfl, ⟨⟨10000, 1, 1⟩, by decide, by decide, by decide, by decide⟩,
    ⟨⟨10000, 1, 2⟩, by decide, by decide, by decide, by decide⟩,
    storesProduct_afterStoring (by decide +kernel), fun h => ?_, by decide +kernel,
    by decide +kernel⟩
  have hread : (runOn (getProduct 1) (afterStoring (saltUntil 2932897))).1 =
      .ok (some { saltUntil 0 with id := some 1 }) := by decide +kernel
  have hsame := h.byId.exact _ _ _ rfl (Prod.ext hread rfl)
  exact absurd hsame (by decide)

/-- Salt that keeps until the end of 9999 is read back. -/
theorem product_rows_round_trip_salt :
    ReadsBackAs (afterStoring (saltUntil 2932896)).db.tables 1 (saltUntil 2932896) ∧
      fromDateString (toDateString 2932896) = 2932896 ∧
      fromDateString (toDateString 2932896) ≠ fromDateString (toDateString 2932897) := by
  have hlast : Representable 2932896 :=
    ⟨⟨9999, 12, 31⟩, by decide, by decide, by decide, by decide⟩
  have hnext : Representable 2932897 := ⟨⟨10000, 1, 1⟩, by decide, by decide, by decide, by decide⟩
  have hdates : (saltUntil 2932896).dates.Each Representable :=
    ⟨nofun, fun date hdate => by cases hdate; exact hlast⟩
  obtain ⟨hrow, hdate, hapart⟩ := product_rows_round_trip_iff (.init rfl) hdates
    (storesProduct_afterStoring (by decide +kernel))
  refine ⟨hrow.mpr ?_, (hdate _ hlast).mpr (by decide),
    (hapart _ _ hlast hnext (by decide)).mpr (Or.inl (by decide))⟩
  exact ⟨nofun, fun date hdate => by cases hdate; decide⟩

/-! ## Batches -/

section

variable {m m' : DBManager} {products : List Product} {environment : List StepOutcome}

/-- A batch leaves the two other tables as they were. -/
theorem insertProducts_tables {productRows : List ProductRow} (hrest : Rests Store.Valid m)
    (hrun : runOn (insertProducts products) (m.withEnvironment environment) = (.ok (), m'))
    (hproducts : m'.db.tables.products = productRows) :
    m'.db.tables = { m.db.tables with products := productRows } := by
  have hother := ((Operation.insertProducts products).run_otherTables m.db.tables).of_ok
    (s := m.withEnvironment environment) ⟨OtherTables.refl _ _, hrest.2⟩
    (show runOn (Operation.insertProducts products).run (m.withEnvironment environment) =
      (.ok .unit, m') by rw [Operation.run, runOn_bind_ok hrun, runOn_pure])
  obtain ⟨hrecipes, hingredients⟩ := hother.1
  show m'.db.tables = ⟨productRows, m.db.tables.recipes, m.db.tables.recipeIngredients⟩
  rw [← hproducts, ← hrecipes, ← hingredients]

/-- **The batch once more**, however it ends. -/
theorem insertProducts_again (hreach : managerRuns.Reachable m')
    (hstock : Restocked m.db.tables.products products m'.db.tables.products) :
    (runOn (insertProducts products) (m'.withEnvironment environment)).2.db.tables =
      m'.db.tables := by
  rcases hagain : runOn (insertProducts products) (m'.withEnvironment environment)
    with ⟨e | ⟨⟩, m''⟩
  · have hfail : runOn (Operation.insertProducts products).run (m'.withEnvironment environment) =
        (.error e, m'') := by
      rw [Operation.run, runOn_bind_error hagain]
    have hsame := failed_unchanged (rests_valid hreach).1 (.insertProducts products) rfl
      environment (Or.inr ⟨e, by rw [hfail]⟩)
    rwa [hfail] at hsame
  · have hproducts := hstock.again setProduct_key setProduct_setProduct
      (insertProducts_restocks.of_ok (s := m'.withEnvironment environment)
        (rfl : _ = m'.db.tables.products) hagain)
    exact insertProducts_tables (rests_valid hreach) hagain hproducts

/-- **A batch of inserts** leaves one row for each key it lists, with the amount and dates listed
last and under the id the key had, leaves the rows of all other keys alone, and changes nothing when
it is issued again, however that ends. -/
theorem insertProducts_upserts (h : managerRuns.Reachable m)
    (hrun : runOn (insertProducts products) (m.withEnvironment environment) = (.ok (), m')) :
    (∀ earlier last later, products = earlier ++ last :: later →
      (∀ product ∈ later, productKey product ≠ productKey last) →
      ∃ productId,
        (m'.db.tables.products.filter fun row => decide (row.key = productKey last)) =
          [productRow productId last] ∧
        ∀ old ∈ m.db.tables.products, old.key = productKey last → old.id = productId) ∧
    (∀ key, (∀ product ∈ products, productKey product ≠ key) →
      (m'.db.tables.products.filter fun row => decide (row.key = key)) =
        m.db.tables.products.filter fun row => decide (row.key = key)) ∧
    ∀ environment', (runOn (insertProducts products)
      (m'.withEnvironment environment')).2.db.tables = m'.db.tables := by
  have hreach' : managerRuns.Reachable m' := by
    have := reachable_operation h environment (.insertProducts products)
    rwa [Operation.run, runOn_bind_ok hrun] at this
  have hstock : Restocked m.db.tables.products products m'.db.tables.products :=
    insertProducts_restocks.of_ok (s := m.withEnvironment environment)
      (rfl : _ = m.db.tables.products) hrun
  refine ⟨?_, fun key hkey => hstock.filter_unlisted setProduct_key hkey, fun environment' =>
    insertProducts_again hreach' hstock⟩
  intro earlier last later hsplit hlater
  apply hstock.last_row (rests_valid hreach').1.productKeys
  rw [hsplit]
  exact lastListed_of_last hlater

end

def freshMilk : Product :=
  { name := "milk", amount := 900, dimension := .milliliter, dates := { expiration := some 20455 } }

/-- Milk twice, and rice. -/
def delivery : List Product :=
  [{ name := "milk", amount := 200, dimension := .milliliter },
    { name := "rice", amount := 1, dimension := .kilogramm }, freshMilk]

def afterDelivery : DBManager :=
  (runOn (insertProducts delivery) ((afterCalls kitchenCalls).withEnvironment [])).2

theorem insertProducts_upserts_delivery :
    (∃ productId, (afterDelivery.db.tables.products.filter
        fun row => decide (row.key = productKey freshMilk)) = [productRow productId freshMilk] ∧
      ∀ old ∈ (afterCalls kitchenCalls).db.tables.products, old.key = productKey freshMilk →
        old.id = productId) ∧
      (runOn (insertProducts delivery) (afterDelivery.withEnvironment [])).2.db.tables =
        afterDelivery.db.tables := by
  have hrun : (runOn (insertProducts delivery)
      ((afterCalls kitchenCalls).withEnvironment [])).1 = .ok () := by decide +kernel
  have hafter : runOn (insertProducts delivery) ((afterCalls kitchenCalls).withEnvironment []) =
      (.ok (), afterDelivery) := by
    rw [afterDelivery, ← hrun]
  have h := insertProducts_upserts (reachable_afterCalls kitchenCalls) hafter
  exact ⟨h.1 (delivery.take 2) freshMilk [] rfl (by simp), h.2.2 []⟩

/-! ## Cookable recipes -/

/-- The keys that a product operation writes, and the former key of the product that it updates or
deletes. An update or a delete that finds no product touches nothing. -/
def Touches (stock : List ProductRow) : Operation → String × Int → Prop
  | .insertProduct product, key | .createProduct product, key => productKey product = key
  | .insertProducts products, key => ∃ product ∈ products, productKey product = key
  | .updateProduct productId product, key =>
      ∃ row ∈ stock, row.id = productId ∧ (row.key = key ∨ productKey product = key)
  | .deleteProduct productId, key => ∃ row ∈ stock, row.id = productId ∧ row.key = key
  | _, _ => False

section

variable {m m' : DBManager} {op : Operation} {environment : List StepOutcome} {r : Returned}
  {key : String × Int}

/-- Rows of other keys stay. -/
theorem untouched_rows (hreach : managerRuns.Reachable m) (hproducts : op.onProducts = true)
    (hmutates : op.mutates = true)
    (hrun : runOn op.run (m.withEnvironment environment) = (.ok r, m'))
    (hkey : ¬ Touches m.db.tables.products op key) {row : ProductRow} (hrow : row.key = key) :
    row ∈ m'.db.tables.products ↔ row ∈ m.db.tables.products := by
  subst hrow
  cases op with
  | insertProduct product =>
      obtain ⟨⟨⟩, m₁, hinsert, hpure⟩ := runOn_bind_eq_ok hrun
      cases hpure
      have hstock := insertProduct_restocks.of_ok (s := m.withEnvironment environment)
        (Upserted.nil : Restocked m.db.tables.products [] _) hinsert
      -- an upsert touches the rows with the keys of its products only
      apply hstock.mem_unlisted setProduct_key
      intro other hother
      rw [List.nil_append, List.mem_singleton] at hother
      rw [hother]
      exact hkey
  | insertProducts products =>
      obtain ⟨⟨⟩, m₁, hinsert, hpure⟩ := runOn_bind_eq_ok hrun
      cases hpure
      have hstock := insertProducts_restocks.of_ok (s := m.withEnvironment environment)
        (rfl : _ = m.db.tables.products) hinsert
      apply hstock.mem_unlisted setProduct_key
      intro product hproduct hsame
      exact hkey ⟨product, hproduct, hsame⟩
  | createProduct product =>
      obtain ⟨productId, hcreate, rfl⟩ := runOn_map_eq_ok hrun
      rw [(createProduct_stored hcreate).1]
      have hne : row ≠ productRow productId product := by
        intro hrow
        exact hkey (congrArg ProductRow.key hrow).symm
      simp [DBManager.withEnvironment, hne]
  | updateProduct productId product =>
      obtain ⟨updated, hupdate, rfl⟩ := runOn_map_eq_ok hrun
      cases updated with
      | false =>
          have hsame := failed_unchanged (rests_valid hreach).1 (.updateProduct productId product) rfl
            environment (Or.inl (by rw [hrun]))
          rw [hrun] at hsame
          rw [hsame]
      | true =>
          -- `key` is neither that of the row before nor that of the row after
          obtain ⟨⟨target, htarget, hid⟩, htables⟩ := updateProduct_stored hupdate
          rw [htables]
          constructor
          · intro hmem
            rcases mem_updateWhere.mp hmem with ⟨hmem, -⟩ | ⟨other, -, -, rfl⟩
            · exact hmem
            · exact absurd ⟨target, htarget, hid, Or.inr rfl⟩ hkey
          · intro hmem
            have hne : row.id ≠ productId := fun hsame => hkey ⟨row, hmem, hsame, Or.inl rfl⟩
            exact mem_updateWhere.mpr (Or.inl ⟨hmem, decide_eq_false hne⟩)
  | deleteProduct productId =>
      obtain ⟨deleted, hdelete, rfl⟩ := runOn_map_eq_ok hrun
      rw [deleteProduct_stored hdelete]
      constructor
      · intro hmem
        exact (mem_deleteWhere.mp hmem).1
      · intro hmem
        exact mem_deleteWhere.mpr ⟨hmem, decide_eq_false fun hid => hkey ⟨row, hmem, hid, rfl⟩⟩
  | _ =>
      first
      | exact (Bool.false_ne_true hproducts).elim
      | exact (Bool.false_ne_true hmutates).elim

end

section

variable {tables tables' : Tables} {sequences : Sequences}

theorem getCookableRecipes_reads (hv : Store.Valid tables sequences) :
    Reads tables getCookableRecipes ((storedRecipes tables).filter (cookable tables)) := by
  rw [← selectCookableRecipes_fetch hv (params [])]
  exact (fetchRecipes_readsAs .selectCookableRecipesWithIngredients).reads tables

theorem storedRecipes_congr (hrecipes : tables'.recipes = tables.recipes)
    (hingredients : tables'.recipeIngredients = tables.recipeIngredients) :
    storedRecipes tables' = storedRecipes tables := by
  have hstored : storedRecipe tables' = storedRecipe tables := by
    funext row
    simp only [storedRecipe, storedIngredients, hingredients]
  rw [storedRecipes, storedRecipes, hrecipes, hstored]

variable (hingredients : tables'.recipeIngredients = tables.recipeIngredients) {recipe : Recipe}

include hingredients

/-- The stock counts at the keys of the recipe's ingredients only. -/
theorem cookable_congr (h : ∀ i ∈ tables.recipeIngredients, recipe.id = some i.recipeId →
    ∀ row : ProductRow, row.key = (i.productName, i.dimension) →
      (row ∈ tables'.products ↔ row ∈ tables.products)) :
    cookable tables' recipe = cookable tables recipe := by
  rw [Bool.eq_iff_iff, cookable_eq_true, cookable_eq_true, hingredients]
  constructor
  · intro hcook i hi hid
    obtain ⟨p, hp, hname, hdimension, hle⟩ := hcook i hi hid
    exact ⟨p, (h i hi hid p (Prod.ext hname hdimension)).mp hp, hname, hdimension, hle⟩
  · intro hcook i hi hid
    obtain ⟨p, hp, hname, hdimension, hle⟩ := hcook i hi hid
    exact ⟨p, (h i hi hid p (Prod.ext hname hdimension)).mpr hp, hname, hdimension, hle⟩

/-- More of everything does no harm. -/
theorem cookable_mono (h : ∀ p ∈ tables.products, ∃ p' ∈ tables'.products,
    p'.key = p.key ∧ p.amountBase ≤ p'.amountBase) (hcook : cookable tables recipe = true) :
    cookable tables' recipe = true := by
  rw [cookable_eq_true] at hcook ⊢
  rw [hingredients]
  intro i hi hid
  obtain ⟨p, hp, hname, hdimension, hle⟩ := hcook i hi hid
  obtain ⟨p', hp', hkey, hmore⟩ := h p hp
  obtain ⟨hname', hdimension'⟩ := Prod.mk.inj hkey
  exact ⟨p', hp', hname'.trans hname, hdimension'.trans hdimension, hle.trans hmore⟩

end

/-- **A product operation changes the cookable recipes locally**, only where an ingredient has a key
that it touches, **and monotonically**: where everything that was in stock is still there, and at
least as much of it, every recipe that was cookable still is. -/
theorem cookable_changes_local_and_monotone {m m' : DBManager} (h : managerRuns.Reachable m)
    {op : Operation} (hproducts : op.onProducts = true) (hmutates : op.mutates = true)
    {environment : List StepOutcome} {r : Returned}
    (hrun : runOn op.run (m.withEnvironment environment) = (.ok r, m')) :
    ∃ before after, Reads m.db.tables getCookableRecipes before ∧
      Reads m'.db.tables getCookableRecipes after ∧
      (∀ recipe, ¬ (recipe ∈ before ↔ recipe ∈ after) → ∃ ingredient ∈ recipe.ingredients,
        Touches m.db.tables.products op (productKey ingredient)) ∧
      ((∀ p ∈ m.db.tables.products, ∃ p' ∈ m'.db.tables.products,
          p'.key = p.key ∧ p.amountBase ≤ p'.amountBase) →
        ∀ recipe ∈ before, recipe ∈ after) := by
  have hrest := rests_valid h
  have hv := hrest.1
  have hv' : Store.Valid m'.db.tables m'.db.sequences := by
    have := (rests_valid (reachable_operation h environment op)).1
    rwa [hrun] at this
  obtain ⟨hrecipes, hingredients⟩ : m'.db.tables.recipes = m.db.tables.recipes ∧
      m'.db.tables.recipeIngredients = m.db.tables.recipeIngredients := by
    have hother := ((op.run_otherTables m.db.tables).of_ok (s := m.withEnvironment environment)
      ⟨OtherTables.refl _ _, hrest.2⟩ hrun).1
    rwa [hproducts] at hother
  have hstored := storedRecipes_congr hrecipes hingredients
  refine ⟨_, _, getCookableRecipes_reads hv, getCookableRecipes_reads hv', ?_, ?_⟩
  · intro recipe hchanged
    by_contra huntouched
    refine hchanged ?_
    rw [hstored, List.mem_filter, List.mem_filter]
    refine and_congr_right fun hmem => ?_
    obtain ⟨row, -, rfl⟩ := mem_storedRecipes.mp hmem
    rw [cookable_congr hingredients]
    intro i hi hid stocked hkey
    have hin : storedIngredient i ∈ (storedRecipe m.db.tables row).ingredients :=
      mem_storedIngredients.mpr ⟨i, hi, (Option.some_inj.mp hid).symm, rfl⟩
    apply untouched_rows h hproducts hmutates hrun ?_ hkey
    rw [← productKey_storedIngredient hv hi]
    exact fun htouched => huntouched ⟨_, hin, htouched⟩
  · intro hmore recipe hmem
    rw [hstored]
    obtain ⟨hrecipe, hcook⟩ := List.mem_filter.mp hmem
    exact List.mem_filter.mpr ⟨hrecipe, cookable_mono hingredients hmore hcook⟩

def moreSalt : Product := { name := "salt", amount := 5, dimension := .gramm }

/-- The kitchen once it has salt. -/
def afterSalt : DBManager :=
  (runOn (Operation.insertProduct moreSalt).run ((afterCalls kitchenCalls).withEnvironment [])).2

/-- Whatever could be cooked can still be cooked with salt. -/
theorem cookable_changes_local_and_monotone_salt :
    ∃ before after, Reads (afterCalls kitchenCalls).db.tables getCookableRecipes before ∧
      Reads afterSalt.db.tables getCookableRecipes after ∧ ∀ recipe ∈ before, recipe ∈ after := by
  have hrun : (runOn (Operation.insertProduct moreSalt).run
      ((afterCalls kitchenCalls).withEnvironment [])).1 = .ok .unit := by decide +kernel
  have hafter : runOn (Operation.insertProduct moreSalt).run
      ((afterCalls kitchenCalls).withEnvironment []) = (.ok .unit, afterSalt) := by
    rw [afterSalt, ← hrun]
  obtain ⟨before, after, hbefore, hread, -, hmore⟩ :=
    cookable_changes_local_and_monotone (reachable_afterCalls kitchenCalls) rfl rfl hafter
  exact ⟨before, after, hbefore, hread, hmore (by decide +kernel)⟩

end RecipesCore.App
