import RecipesCore.Db.Mirror
import RecipesCore.Db.ReadBack
import RecipesCore.Relational.Upserts
import RecipesCore.Types.DateStrings

/-!
# The stock after a product operation

What each product operation that returns leaves in `products`: a create appends a row, an update
rewrites one and a delete drops one, while an insert and a batch of inserts upsert. A row that was
written is read as the product, its dates as far as their texts carry them.
-/

namespace RecipesCore.Db

open RecipesCore.Logic RecipesCore.Logic.Program
open RecipesCore.Relational
open RecipesCore.Sqlite
open RecipesCore.Types
open DBManager

/-! ## Upserts -/

/-- A row takes over a product's amount and dates. -/
def setProduct (product : Product) (row : ProductRow) : ProductRow :=
  ProductRow.setExcluded (productRow row.id product) row

theorem setExcluded_eq (id : Int) (product : Product) :
    ProductRow.setExcluded (productRow id product) = setProduct product := rfl

theorem setProduct_key (product : Product) (row : ProductRow) :
    (setProduct product row).key = row.key := rfl

theorem setProduct_setProduct (product product' : Product) (row : ProductRow) :
    setProduct product (setProduct product' row) = setProduct product row := rfl

theorem setProduct_productRow (id : Int) (product : Product) :
    setProduct product (productRow id product) = productRow id product := rfl

/-- A row that carries the amount and dates of a product of its key is the product's row. -/
theorem setProduct_eq_self {product : Product} {row : ProductRow}
    (hkey : productKey product = row.key) :
    setProduct product row = row ↔ row = productRow row.id product := by
  obtain ⟨hname, hdimension⟩ := Prod.mk.inj hkey
  have hset : setProduct product row = productRow row.id product := by
    simp [setProduct, ProductRow.setExcluded, productRow, hname, hdimension]
  rw [hset]
  exact eq_comm

/-- The stock after `listed` was inserted into `start`. -/
abbrev Restocked (start : List ProductRow) (listed : List Product) (stock : List ProductRow) :
    Prop :=
  Upserted ProductRow.key productKey setProduct start listed stock

section

variable {start : List ProductRow} {listed products : List Product} {product : Product}

theorem refreshed_id {row : ProductRow} :
    (refreshed ProductRow.key productKey setProduct listed row).id = row.id := by
  unfold refreshed
  split
  · rfl
  · rfl

theorem insertProduct_restocks :
    Triple (fun m => Restocked start listed m.db.tables.products) (insertProduct product)
      (fun _ m => Restocked start (listed ++ [product]) m.db.tables.products)
      (fun _ _ => True) := by
  rw [insertProduct_eq]
  refine (execBound_triple (J := fun db _ => Restocked start listed db.tables.products)).conseq
    (fun _ h => h) ?_ (fun _ _ _ => trivial)
  rintro _ m ⟨gap, db, hstock, hsql⟩
  obtain ⟨id, -, -, hdb⟩ := insertProduct_effect.mp hsql
  rw [hdb, setExcluded_eq]
  exact hstock.upsert setProduct_key setProduct_setProduct rfl (setProduct_productRow id product)

/-- **A batch that returns** has upserted its products in order. -/
theorem insertProducts_restocks :
    Triple (fun m => m.db.tables.products = start) (insertProducts products)
      (fun _ m => Restocked start products m.db.tables.products) (fun _ _ => True) := by
  refine transaction_commits_from (P := fun db => db.tables.products = start)
    (Q := fun _ tables => Restocked start products tables.products) ?_
  have hloop : Triple (fun m => m.db.tables.products = start) (products.forM insertProduct)
      (fun _ m => Restocked start products m.db.tables.products) (fun _ _ => True) :=
    (Triple.forM_done (I := fun listed (m : DBManager) =>
      Restocked start listed m.db.tables.products) fun _ _ => insertProduct_restocks).conseq
      (fun _ hm => hm ▸ Upserted.nil) (fun _ _ h => h) (fun _ _ h => h)
  exact hloop.bind fun _ => (commit_tables (Q := fun tables =>
    Restocked start products tables.products)).conseq (fun _ h => h) (fun _ _ h => Or.inl h)
      (fun _ _ h => h)

/-- Every stored key that is listed has the row of its last listing. -/
theorem Restocked.row_eq {stock : List ProductRow} (h : Restocked start listed stock)
    {row : ProductRow} (hrow : row ∈ stock)
    (hlast : lastListed productKey listed row.key = some product) :
    row = productRow row.id product :=
  (setProduct_eq_self (lastListed_mem hlast).2).mp
    (h.carries setProduct_key setProduct_setProduct hrow hlast)

/-- **A listed key has one row**, that of its last listing, under the id the key had. -/
theorem Restocked.last_row {stock : List ProductRow} (h : Restocked start listed stock)
    (hkeys : (stock.map ProductRow.key).Nodup)
    (hlast : lastListed productKey listed (productKey product) = some product) :
    ∃ productId, (stock.filter fun row => decide (row.key = productKey product)) =
        [productRow productId product] ∧
      ∀ old ∈ start, old.key = productKey product → old.id = productId := by
  obtain ⟨row, hrow, hrowKey⟩ := h.present product (lastListed_mem hlast).1
  have hrowEq := h.row_eq hrow (hrowKey ▸ hlast)
  refine ⟨row.id, ?_, ?_⟩
  · rw [← hrowKey, filter_key_eq hkeys hrow, ← hrowEq]
  · intro old hold holdKey
    -- the old row is still there, and keys are unique
    obtain ⟨added, hsplit, -⟩ := h.split
    have hmem : refreshed ProductRow.key productKey setProduct listed old ∈ stock := by
      rw [hsplit]
      exact List.mem_append_left _ (List.mem_map.mpr ⟨old, hold, rfl⟩)
    have hkey : (refreshed ProductRow.key productKey setProduct listed old).key = row.key :=
      (refreshed_key setProduct_key).trans (holdKey.trans hrowKey.symm)
    rw [← List.inj_on_of_nodup_map hkeys hmem hrow hkey, refreshed_id]

end

/-- What a delete leaves. -/
theorem deleteProduct_stored {m m' : DBManager} {productId : Int} {deleted : Bool}
    (h : runOn (deleteProduct productId) m = (.ok deleted, m')) :
    m'.db.tables = { m.db.tables with
      products := deleteWhere (fun row => decide (row.id = productId)) m.db.tables.products } := by
  rw [deleteProduct_eq] at h
  obtain ⟨⟨⟩, m₁, hexec, hchanges⟩ := runOn_bind_eq_ok h
  obtain ⟨gap, db, hdb, hsql⟩ := (execBound_triple (J := fun db _ => db = m.db)).of_ok rfl hexec
  obtain rfl : db = m.db := hdb
  obtain ⟨n, m₂, hget, hpure⟩ := runOn_bind_eq_ok hchanges
  cases hget
  cases hpure
  rw [deleteProduct_effect.mp hsql]

/-! ## Written rows -/

/-- A product is stored, and under which id. -/
inductive StoresProduct (product : Product) (m : DBManager) : Int → DBManager → Prop where
  | create {environment : List StepOutcome} {productId : Int} {m' : DBManager} :
      runOn (createProduct product) (m.withEnvironment environment) = (.ok productId, m') →
      StoresProduct product m productId m'
  | update {environment : List StepOutcome} {productId : Int} {m' : DBManager} :
      runOn (updateProduct productId product) (m.withEnvironment environment) = (.ok true, m') →
      StoresProduct product m productId m'
  /-- The id is the one stored under the product's key. -/
  | insert {environment : List StepOutcome} {row : ProductRow} {m' : DBManager} :
      runOn (insertProduct product) (m.withEnvironment environment) = (.ok (), m') →
      row ∈ m'.db.tables.products → row.key = productKey product →
      StoresProduct product m row.id m'

theorem StoresProduct.stored {product : Product} {m m' : DBManager} {productId : Int}
    (h : StoresProduct product m productId m') :
    productRow productId product ∈ m'.db.tables.products := by
  cases h with
  | create hrun =>
      rw [(createProduct_stored hrun).1]
      exact List.mem_append_right _ (List.mem_singleton_self _)
  | update hrun =>
      obtain ⟨⟨row, hrow, rfl⟩, htables⟩ := updateProduct_stored hrun
      rw [htables]
      exact mem_updateWhere.mpr (Or.inr ⟨row, hrow, decide_eq_true rfl, rfl⟩)
  | @insert environment row _ hrun hrow hkey =>
      have hstock := insertProduct_restocks.of_ok (s := m.withEnvironment environment)
        (Upserted.nil : Restocked m.db.tables.products [] _) hrun
      have hlast : lastListed productKey [product] row.key = some product := by
        simp [lastListed, hkey]
      rw [← hstock.row_eq hrow hlast]
      exact hrow

theorem StoresProduct.valid {product : Product} {m m' : DBManager} {productId : Int}
    (hrest : Rests Store.Valid m) (h : StoresProduct product m productId m') :
    Store.Valid m'.db.tables m'.db.sequences := by
  have hkept := rests_kept (Store.closed_valid {})
  cases h with
  | @create environment _ _ hrun =>
      exact ((createProduct_keeps hkept.outer trivial).of_ok
        (s := m.withEnvironment environment) hrest hrun).1
  | @update environment _ _ hrun =>
      exact ((updateProduct_keeps hkept.outer trivial).of_ok
        (s := m.withEnvironment environment) hrest hrun).1
  | @insert environment row _ hrun hrow hkey =>
      exact ((insertProduct_keeps hkept.outer trivial).of_ok
        (s := m.withEnvironment environment) hrest hrun).1

/-! ## Read rows -/

section

variable {tables : Tables} {sequences : Sequences} {productId : Int} {product : Product}

theorem readDate_toDateString (date : Option SysDays) :
    readDate (Value.ofNullable .text (date.map toDateString)) = date.map readBack := by
  cases date <;> rfl

theorem readProduct_written :
    readProduct (productRow productId product).columns =
      { product with id := some productId, dates := product.dates.readBack } := by
  have hdimension : Dimension.ofCode (Value.integer product.dimension.code).getInt.toInt =
      product.dimension := Dimension.ofCode_stored _
  simp [readProduct, productRow, ProductRow.columns, getColumn, hdimension, readDate_toDateString,
    Dates.readBack]

/-- The products as `GetAllProducts` lists them. -/
def storedProducts (tables : Tables) : List Product :=
  (orderBy (fun row : ProductRow => row.amountBase) tables.products).map
    fun row => readProduct row.columns

theorem getAllProducts_reads (tables : Tables) :
    Reads tables getAllProducts (storedProducts tables) := by
  have h := getAllProducts_readsAs.reads tables
  rwa [foldl_append_map, List.nil_append, Read.sql, PreparedStatements.kSelectAllProducts,
    List.map_map] at h

theorem getProduct_reads (tables : Tables) (productId : Int) :
    Reads tables (getProduct productId) (findProduct tables productId) := by
  have h := (getProduct_readsAs productId).reads tables
  rwa [selectProductById_rows] at h

theorem findProduct_mem (hv : Store.Valid tables sequences) {row : ProductRow}
    (hrow : row ∈ tables.products) :
    findProduct tables row.id = some (readProduct row.columns) := by
  rw [findProduct, filter_key_eq hv.productIds hrow]
  rfl

/-- The list has one product with the id of a row. -/
theorem storedProducts_filter (hv : Store.Valid tables sequences) {row : ProductRow}
    (hrow : row ∈ tables.products) :
    ((storedProducts tables).filter fun product => decide (product.id = some row.id)) =
      [readProduct row.columns] := by
  have hid : ((fun product : Product => decide (product.id = some row.id)) ∘
      fun row : ProductRow => readProduct row.columns) = fun other => decide (other.id = row.id) := by
    funext other
    simp [readProduct, ProductRow.columns, getColumn]
  rw [storedProducts, List.filter_map, hid, filter_orderBy, filter_key_eq hv.productIds hrow]
  rfl

end

end RecipesCore.Db
