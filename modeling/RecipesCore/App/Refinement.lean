import RecipesCore.App.Entries

/-!
# The service refines the kitchen

Every call of a use case over a manager is a step of the kitchen that the manager depicts, whatever
SQLite does in the course of it; so every history of the service is one of the kitchen.
-/

namespace RecipesCore.App

open RecipesCore.Db RecipesCore.Db.DBManager
open RecipesCore.Logic RecipesCore.Logic.Program
open RecipesCore.Relational
open RecipesCore.Types

/-- The tables have the entries of the kitchen, and their counters count its ids. -/
structure Depicts (m : DBManager) (k : Kitchen) : Prop where
  rests : Rests Store.Valid m
  products : k.products.entry = productEntry m.db.tables
  recipes : k.recipes.entry = recipeEntry m.db.tables
  productsIssued : k.products.issued ≤ m.db.sequences.products
  recipesIssued : k.recipes.issued ≤ m.db.sequences.recipes

theorem depicts_ofStore {m : DBManager} (hrest : Rests Store.Valid m) :
    Depicts m (Kitchen.ofStore hrest.1) := ⟨hrest, rfl, rfl, le_rfl, le_rfl⟩

section

variable {m m' : DBManager} {k : Kitchen} {productId recipeId : Int} {product : Product}
  {recipe : Recipe}

/-! ## Single operations of the manager -/

/-- Where the tables do not change, neither does the kitchen. -/
theorem Depicts.unchanged (h : Depicts m k) (honward : Onward m m')
    (htables : m'.db.tables = m.db.tables) : Depicts m' k where
  rests := honward.rests
  products := by rw [h.products, htables]
  recipes := by rw [h.recipes, htables]
  productsIssued := h.productsIssued.trans honward.products
  recipesIssued := h.recipesIssued.trans honward.recipes

/-- Neither the statements nor the steps ahead matter. -/
theorem Depicts.of_db (h : Depicts m k) (hdb : m'.db = m.db) (hsaved : m'.saved = m.saved) :
    Depicts m' k := h.unchanged ((Onward.refl h.rests).read hdb hsaved) (by rw [hdb])

/-- A read that follows. -/
theorem Depicts.read {α : Type} {body : DbM α} {answer : Tables → α} (h : Depicts m k)
    (hread : ReadsAs body answer) : Depicts (runOn body m).2 k := by
  have hkept : KeptByReads fun m => Depicts m k :=
    keptByReads_of (fun _ _ _ h => h.of_db rfl rfl) fun _ _ h => h.of_db rfl rfl
  exact (hread.keeps hkept).after h

/-- Only the products change, and as the kitchen's do. -/
theorem Depicts.withProducts (h : Depicts m k) (honward : Onward m m')
    {c : Catalogue Product.id productKey} (hentry : c.entry = productEntry m'.db.tables)
    (hrecipes : recipeEntry m'.db.tables = recipeEntry m.db.tables)
    (hissued : c.issued ≤ m'.db.sequences.products) : Depicts m' { k with products := c } where
  rests := honward.rests
  products := hentry
  recipes := by rw [h.recipes, hrecipes]
  productsIssued := hissued
  recipesIssued := h.recipesIssued.trans honward.recipes

/-- Only the recipes change, and as the kitchen's do. -/
theorem Depicts.withRecipes (h : Depicts m k) (honward : Onward m m')
    {c : Catalogue Recipe.id Recipe.name} (hentry : c.entry = recipeEntry m'.db.tables)
    (hproducts : productEntry m'.db.tables = productEntry m.db.tables)
    (hissued : c.issued ≤ m'.db.sequences.recipes) : Depicts m' { k with recipes := c } where
  rests := honward.rests
  products := by rw [h.products, hproducts]
  recipes := hentry
  productsIssued := h.productsIssued.trans honward.products
  recipesIssued := hissued

/-- The manager creates a product as the kitchen does. -/
theorem Depicts.createProduct (h : Depicts m k)
    (hrun : runOn (createProduct product) m = (.ok productId, m')) :
    productEntry m'.db.tables productId = some (keptProduct product productId) ∧
      ∃ k', k.Does (.createProduct product) (keptProduct product productId) k' ∧ Depicts m' k' := by
  have honward := body_onward (.createProduct product) rfl h.rests hrun
  obtain ⟨hnew, hcounted, hentries, hrecipes⟩ := createProduct_entries h.rests hrun
  refine ⟨by rw [hentries, Function.update_self], ?_⟩
  rw [← h.products] at hentries
  obtain ⟨c, hadds, hentry, rfl⟩ := Catalogue.exists_adds
    (Kitchen.ofStore honward.rests.1).products (h.productsIssued.trans_lt hnew) hentries
  exact ⟨{ k with products := c }, ⟨rfl, _, rfl, hadds⟩,
    h.withProducts honward hentry hrecipes hcounted⟩

/-- The rows after an update are those of the kitchen's. -/
theorem Depicts.updateProduct (h : Depicts m k)
    (hrun : runOn (updateProduct productId product) m = (.ok true, m')) :
    ∃ k', k.Does (.updateProduct productId product) () k' ∧ Depicts m' k' := by
  have honward := body_onward (.updateProduct productId product) rfl h.rests hrun
  obtain ⟨hold, hentries, hrecipes⟩ := updateProduct_entries h.rests hrun
  rw [← h.products] at hold hentries
  obtain ⟨c, hreplaces, hentry, hissued⟩ := Catalogue.exists_replaces
    (Kitchen.ofStore honward.rests.1).products hold hentries
  exact ⟨{ k with products := c }, ⟨rfl, hreplaces⟩, h.withProducts honward hentry hrecipes
    (hissued.le.trans (h.productsIssued.trans honward.products))⟩

theorem Depicts.deleteProduct (h : Depicts m k)
    (hrun : runOn (deleteProduct productId) m = (.ok true, m')) :
    ∃ k', k.Does (.deleteProduct productId) () k' ∧ Depicts m' k' := by
  have honward := body_onward (.deleteProduct productId) rfl h.rests hrun
  obtain ⟨hold, hentries, hrecipes⟩ := deleteProduct_entries h.rests hrun
  rw [← h.products] at hold hentries
  obtain ⟨c, hremoves, hentry, hissued⟩ := Catalogue.exists_removes
    (Kitchen.ofStore honward.rests.1).products hold hentries
  exact ⟨{ k with products := c }, ⟨rfl, hremoves⟩, h.withProducts honward hentry hrecipes
    (hissued.le.trans (h.productsIssued.trans honward.products))⟩

/-- The recipe that is created has canonical ingredients. -/
theorem Depicts.createRecipe (h : Depicts m k)
    (hrun : runOn (createRecipe recipe) m = (.ok recipeId, m')) :
    ∃ created k', recipeEntry m'.db.tables recipeId = some created ∧
      k.Does (.createRecipe recipe) created k' ∧ Depicts m' k' := by
  have honward := body_onward (.createRecipe recipe) rfl h.rests hrun
  obtain ⟨hnew, hcounted, ingredients, hcanonical, hentries, hproducts⟩ :=
    createRecipe_entries h.rests hrun
  have hcreated : recipeEntry m'.db.tables recipeId =
      some (keptRecipe recipe ingredients recipeId) := by rw [hentries, Function.update_self]
  rw [← h.recipes] at hentries
  obtain ⟨c, hadds, hentry, rfl⟩ := Catalogue.exists_adds
    (Kitchen.ofStore honward.rests.1).recipes (h.recipesIssued.trans_lt hnew) hentries
  exact ⟨_, { k with recipes := c }, hcreated, ⟨rfl, ingredients, _, hcanonical, rfl, hadds⟩,
    h.withRecipes honward hentry hproducts hcounted⟩

theorem Depicts.updateRecipe (h : Depicts m k)
    (hrun : runOn (updateRecipe recipeId recipe) m = (.ok true, m')) :
    ∃ k', k.Does (.updateRecipe recipeId recipe) () k' ∧ Depicts m' k' := by
  have honward := body_onward (.updateRecipe recipeId recipe) rfl h.rests hrun
  obtain ⟨hold, ingredients, hcanonical, hentries, hproducts⟩ := updateRecipe_entries h.rests hrun
  rw [← h.recipes] at hold hentries
  obtain ⟨c, hreplaces, hentry, hissued⟩ := Catalogue.exists_replaces
    (Kitchen.ofStore honward.rests.1).recipes hold hentries
  exact ⟨{ k with recipes := c }, ⟨rfl, ingredients, hcanonical, hreplaces⟩,
    h.withRecipes honward hentry hproducts
      (hissued.le.trans (h.recipesIssued.trans honward.recipes))⟩

theorem Depicts.deleteRecipe (h : Depicts m k)
    (hrun : runOn (deleteRecipe recipeId) m = (.ok true, m')) :
    ∃ k', k.Does (.deleteRecipe recipeId) () k' ∧ Depicts m' k' := by
  have honward := body_onward (.deleteRecipe recipeId) rfl h.rests hrun
  obtain ⟨hold, hentries, hproducts⟩ := deleteRecipe_entries h.rests hrun
  rw [← h.recipes] at hold hentries
  obtain ⟨c, hremoves, hentry, hissued⟩ := Catalogue.exists_removes
    (Kitchen.ofStore honward.rests.1).recipes hold hentries
  exact ⟨{ k with recipes := c }, ⟨rfl, hremoves⟩, h.withRecipes honward hentry hproducts
    (hissued.le.trans (h.recipesIssued.trans honward.recipes))⟩

/-! ## What a use case makes of them -/

/-- A create and the read behind it. -/
theorem createThenGet_cases {α β : Type} {create : DbM β} {get : β → DbM (Option α)}
    {message : String} {result : Expected α}
    (h : runOn (createThenGet create get message) m = (.ok result, m')) :
    (∃ e, runOn create m = (.error e, m') ∧ result = .error (storageError e)) ∨
      ∃ id m₁, runOn create m = (.ok id, m₁) ∧ m' = (runOn (get id) m₁).2 ∧
        ((∃ error, result = .error error ∧ error.code = .storage) ∨
          ∃ a, result = .ok a ∧ runOn (get id) m₁ = (.ok (some a), m')) := by
  rw [createThenGet, runOn_guarded] at h
  rcases hcreate : runOn create m with ⟨e | id, m₁⟩
  · rw [runOn_bind_error hcreate] at h
    cases h
    exact Or.inl ⟨e, rfl, rfl⟩
  · refine Or.inr ⟨id, m₁, rfl, ?_⟩
    rw [runOn_bind_ok hcreate] at h
    rcases hget : runOn (get id) m₁ with ⟨e | found, m₂⟩
    · rw [runOn_bind_error hget] at h
      cases h
      exact ⟨rfl, Or.inl ⟨_, rfl, rfl⟩⟩
    · rw [runOn_bind_ok hget] at h
      cases found with
      | none =>
          cases h
          exact ⟨rfl, Or.inl ⟨_, rfl, rfl⟩⟩
      | some a =>
          cases h
          exact ⟨rfl, Or.inr ⟨a, rfl, rfl⟩⟩

/-- An update or delete, and whether its id was found. -/
theorem requireFound_cases {message : String} {body : DbM Bool} {result : Expected Unit}
    (h : runOn (do return RecipeService.requireFound message (← guarded (.ok <$> body))) m =
      (.ok result, m')) :
    (∃ e, runOn body m = (.error e, m') ∧ result = .error (storageError e)) ∨
      ∃ found, runOn body m = (.ok found, m') ∧
        result = if found then .ok () else .error ⟨.notFound, message⟩ := by
  rcases hbody : runOn body m with ⟨e | found, m₁⟩
  · have hguarded : runOn (guarded (.ok <$> body)) m = (.ok (.error (storageError e)), m₁) := by
      rw [runOn_guarded, map_eq_pure_bind, runOn_bind_error hbody]
    rw [runOn_bind_ok hguarded] at h
    cases h
    exact Or.inl ⟨e, rfl, rfl⟩
  · rw [runOn_bind_ok (runOn_guarded_map hbody)] at h
    cases h
    refine Or.inr ⟨found, rfl, ?_⟩
    cases found with
    | false => rfl
    | true => rfl

/-- A read, and what SQLite makes of it. -/
theorem read_cases {α : Type} {body : DbM α} {result : Expected α}
    (h : runOn (guarded (.ok <$> body)) m = (.ok result, m')) :
    m' = (runOn body m).2 ∧ ((∃ e, result = .error (storageError e)) ∨
      ∃ a, runOn body m = (.ok a, m') ∧ result = .ok a) := by
  rcases hbody : runOn body m with ⟨e | a, m₁⟩
  · rw [runOn_guarded, map_eq_pure_bind, runOn_bind_error hbody] at h
    cases h
    exact ⟨rfl, Or.inl ⟨e, rfl⟩⟩
  · rw [runOn_guarded_map hbody] at h
    cases h
    exact ⟨rfl, Or.inr ⟨a, rfl, rfl⟩⟩

/-- The kitchen can give the answer and is depicted then. -/
def Served (k : Kitchen) (op : ServiceOperation) (result : Expected op.Result) (m' : DBManager) :
    Prop := ∃ k', k.Serves op k' result ∧ Depicts m' k'

section

variable (op : ServiceOperation) {result : Expected op.Result}

/-- A create is one of the kitchen's, and stays one when the read behind it fails. -/
theorem Depicts.createThenGet (operation : Operation) {β : Type} {f : β → Returned}
    {create : DbM β} {get : β → DbM (Option op.Result)} {answer : β → Tables → Option op.Result}
    {message : String} (h : Depicts m k) (hvalid : ¬ op.Invalid) (hcreates : op.creates = true)
    (hop : operation.run = f <$> create) (hatomic : Atomic (fun _ => False) create)
    (hget : ∀ id, ReadsAs (get id) (answer id))
    (hdoes : ∀ id m₁, runOn create m = (.ok id, m₁) → ∃ a k', k.Does op a k' ∧ Depicts m₁ k' ∧
      answer id m₁.db.tables = some a)
    (hrun : runOn (createThenGet create get message) m = (.ok result, m')) :
    Served k op result m' := by
  have hpre := And.intro h.rests.1 (And.intro (Eq.refl m.db.tables) (Eq.refl m.db.sequences))
  rcases createThenGet_cases hrun with ⟨e, hcreate, rfl⟩ | ⟨id, m₁, hcreate, rfl, hresult⟩
  · have htables : m'.db.tables = m.db.tables :=
      (hatomic m.db.tables m.db.sequences).of_error hpre hcreate
    exact ⟨k, .failed hvalid, h.unchanged (body_onward _ hop h.rests hcreate) htables⟩
  · obtain ⟨a, k', ha, hk', hanswer⟩ := hdoes id m₁ hcreate
    refine ⟨k', ?_, hk'.read (hget id)⟩
    rcases hresult with ⟨error, rfl, hcode⟩ | ⟨b, rfl, hread⟩
    · show k.Declines op error.code k'
      rw [hcode]
      exact .unconfirmed hvalid hcreates ha
    · obtain rfl : b = a := by
        -- the read behind the create finds what the create has stored
        have hexact := (hget id).exact m₁ _ _ hread
        rw [hanswer] at hexact
        exact Option.some_inj.mp hexact
      exact ⟨hvalid, ha⟩

/-- A read is answered off the tables, which are the kitchen's. -/
theorem Depicts.answer {body : DbM op.Result} {answer : Tables → op.Result} (h : Depicts m k)
    (hvalid : ¬ op.Invalid) (hread : ReadsAs body answer)
    (hdoes : k.Does op (answer m.db.tables) k)
    (hrun : runOn (guarded (.ok <$> body)) m = (.ok result, m')) : Served k op result m' := by
  obtain ⟨rfl, ⟨e, rfl⟩ | ⟨a, ha, rfl⟩⟩ := read_cases hrun
  · exact ⟨k, .failed hvalid, h.read hread⟩
  · obtain rfl := hread.exact m a _ ha
    exact ⟨k, ⟨hvalid, hdoes⟩, h.read hread⟩

end

/-- An update or delete, over whatever `Serves` says of its three ways out. -/
theorem Depicts.change (S : Kitchen → Expected Unit → Prop) (operation : Operation)
    {body : DbM Bool} {message : String} {stored : Prop} {result : Expected Unit} (h : Depicts m k)
    (hop : operation.run = Returned.bool <$> body)
    (hatomic : Atomic (fun done => done = false) body)
    (hexact : Triple (fun s => Store.Valid s.db.tables s.db.sequences ∧ s.db.tables = m.db.tables ∧
      s.db.sequences = m.db.sequences) body (fun done _ => done = true ↔ stored) fun _ _ => True)
    (hfails : ∀ error : Error, error.code = .storage → S k (.error error))
    (hmisses : ¬ stored → ∀ error : Error, error.code = .notFound → S k (.error error))
    (hdoes : runOn body m = (.ok true, m') → ∃ k', S k' (.ok ()) ∧ Depicts m' k')
    (hrun : runOn (do return RecipeService.requireFound message (← guarded (.ok <$> body))) m =
      (.ok result, m')) : ∃ k', S k' result ∧ Depicts m' k' := by
  have hpre := And.intro h.rests.1 (And.intro (Eq.refl m.db.tables) (Eq.refl m.db.sequences))
  rcases requireFound_cases hrun with ⟨e, hbody, rfl⟩ | ⟨found, hbody, rfl⟩
  · have htables : m'.db.tables = m.db.tables :=
      (hatomic m.db.tables m.db.sequences).of_error hpre hbody
    exact ⟨k, hfails _ rfl, h.unchanged (body_onward _ hop h.rests hbody) htables⟩
  · cases found with
    | true => exact hdoes hbody
    | false =>
        have htables : m'.db.tables = m.db.tables :=
          (hatomic m.db.tables m.db.sequences).of_ok hpre hbody rfl
        have hstored : ¬ stored := fun hstored =>
          Bool.false_ne_true ((hexact.of_ok hpre hbody).mpr hstored)
        exact ⟨k, hmisses hstored _ rfl, h.unchanged (body_onward _ hop h.rests hbody) htables⟩

/-! ## What the readers say of it -/

/-- The stored products are the kitchen's, each once. -/
theorem Depicts.lists_products (h : Depicts m k) :
    k.products.Lists (storedProducts m.db.tables) := by
  refine ⟨storedProducts_nodup h.rests.1, fun product => ?_⟩
  rw [mem_storedProducts h.rests.1, h.products]

/-- So are the stored recipes. -/
theorem Depicts.lists_recipes (h : Depicts m k) : k.recipes.Lists (storedRecipes m.db.tables) := by
  refine ⟨?_, fun recipe => ?_⟩
  · exact (storedRecipes_names h.rests.1).imp fun hlt => ne_of_apply_ne Recipe.name hlt.ne
  · rw [mem_storedRecipes_iff h.rests.1, h.recipes]

/-- The rows of the ingredients and of the products speak of the same stock as the entries. -/
theorem Depicts.cookable_iff (h : Depicts m k) (hrecipe : recipe ∈ storedRecipes m.db.tables) :
    cookable m.db.tables recipe = true ↔ k.CanCook recipe := by
  have hv := h.rests.1
  obtain ⟨row, -, rfl⟩ := mem_storedRecipes.mp hrecipe
  rw [cookable_eq_true]
  constructor
  · intro hcook ingredient hin
    obtain ⟨i, hi, hid, rfl⟩ := mem_storedIngredients.mp hin
    obtain ⟨p, hp, hname, hdimension, hle⟩ := hcook i hi (congrArg some hid.symm)
    obtain ⟨hkey, hamount⟩ := readProduct_fields hv hp
    refine ⟨p.id, readProduct p.columns, ?_, ?_, ?_⟩
    · rw [h.products]
      exact (productEntry_eq_some hv).mpr ⟨p, hp, rfl, rfl⟩
    · rw [hkey, productKey_storedIngredient hv hi]
      exact Prod.ext hname hdimension
    · rwa [hamount, (storedIngredient_fields hv hi).2]
  · intro hcook i hi hid
    have hin : storedIngredient i ∈ storedIngredients m.db.tables row.id :=
      mem_storedIngredients.mpr ⟨i, hi, (Option.some_inj.mp hid).symm, rfl⟩
    obtain ⟨productId, product, hentry, hkey, hle⟩ := hcook _ hin
    rw [h.products] at hentry
    obtain ⟨p, hp, -, rfl⟩ := (productEntry_eq_some hv).mp hentry
    rw [(readProduct_fields hv hp).1, productKey_storedIngredient hv hi] at hkey
    rw [(readProduct_fields hv hp).2, (storedIngredient_fields hv hi).2] at hle
    obtain ⟨hname, hdimension⟩ := Prod.mk.inj hkey
    exact ⟨p, hp, hname, hdimension, hle⟩

theorem Depicts.cookable_recipes (h : Depicts m k) :
    k.Does .getCookableRecipes ((storedRecipes m.db.tables).filter (cookable m.db.tables)) k := by
  refine ⟨rfl, (storedRecipes_names h.rests.1).filter _, fun recipe => ?_⟩
  rw [List.mem_filter, ← h.lists_recipes.2]
  exact and_congr_right fun hrecipe => h.cookable_iff hrecipe

/-! ## Every use case -/

section

variable {op : ServiceOperation} {error : Error}

/-- That SQLite fails is a way to decline. -/
theorem serves_failed (hvalid : ¬ op.Invalid) (hcode : error.code = .storage) :
    k.Serves op k (.error error) := by
  show k.Declines op error.code k
  rw [hcode]
  exact .failed hvalid

/-- That the id is not there is another. -/
theorem serves_missing (hvalid : ¬ op.Invalid) (hmisses : k.Misses op)
    (hcode : error.code = .notFound) : k.Serves op k (.error error) := by
  show k.Declines op error.code k
  rw [hcode]
  exact .missing hvalid hmisses

end

theorem Depicts.misses_product (h : Depicts m k) (hstored : ¬ HasProduct productId m.db.tables) :
    k.products.entry productId = none := by
  rwa [h.products, productEntry_eq_none]

theorem Depicts.misses_recipe (h : Depicts m k) (hstored : ¬ HasRecipe recipeId m.db.tables) :
    k.recipes.entry recipeId = none := by
  rwa [h.recipes, recipeEntry_eq_none]

/-! ### The writes -/

theorem Depicts.serves_createProduct {result : Expected Product} (h : Depicts m k)
    (hvalid : ¬ ServiceOperation.Invalid (.createProduct product))
    (hrun : runOn (ServiceOperation.run (.createProduct product)) m = (.ok result, m')) :
    Served k (.createProduct product) result m' := by
  rw [ServiceOperation.run, RecipeService.createProduct, unfit_iff.mp hvalid] at hrun
  change runOn (sqliteRecipeRepository.createProduct product) m = _ at hrun
  rw [createProduct_eq_createThenGet] at hrun
  refine h.createThenGet (.createProduct product) (.createProduct product) hvalid rfl rfl
    (createProduct_atomic product) getProduct_readsAs ?_ hrun
  intro productId m₁ hcreate
  obtain ⟨hentry, k', hdoes, hk'⟩ := h.createProduct hcreate
  refine ⟨_, k', hdoes, hk', ?_⟩
  rw [selectProductById_rows, findProduct_eq_productEntry, hentry]

theorem Depicts.serves_updateProduct {result : Expected Unit} (h : Depicts m k)
    (hvalid : ¬ ServiceOperation.Invalid (.updateProduct productId product))
    (hrun : runOn (ServiceOperation.run (.updateProduct productId product)) m = (.ok result, m')) :
    Served k (.updateProduct productId product) result m' := by
  rw [ServiceOperation.run, RecipeService.updateProduct, unfit_iff.mp hvalid] at hrun
  refine h.change (fun k' result => k.Serves (.updateProduct productId product) k' result)
    (.updateProduct productId product) rfl (updateProduct_atomic productId product)
    (updateProduct_exact product) (fun _ => serves_failed hvalid)
    (fun hstored _ => serves_missing hvalid (h.misses_product hstored)) ?_ hrun
  intro hbody
  obtain ⟨k', hdoes, hk'⟩ := h.updateProduct hbody
  exact ⟨k', ⟨hvalid, hdoes⟩, hk'⟩

theorem Depicts.serves_deleteProduct {result : Expected Unit} (h : Depicts m k)
    (hrun : runOn (ServiceOperation.run (.deleteProduct productId)) m = (.ok result, m')) :
    Served k (.deleteProduct productId) result m' := by
  change runOn (do return RecipeService.requireFound _ (← guarded (.ok <$>
    DBManager.deleteProduct productId))) m = _ at hrun
  have hvalid : ¬ ServiceOperation.Invalid (.deleteProduct productId) := False.elim
  refine h.change (fun k' result => k.Serves (.deleteProduct productId) k' result)
    (.deleteProduct productId) rfl (deleteProduct_atomic productId) deleteProduct_exact
    (fun _ => serves_failed hvalid)
    (fun hstored _ => serves_missing hvalid (h.misses_product hstored)) ?_ hrun
  intro hbody
  obtain ⟨k', hdoes, hk'⟩ := h.deleteProduct hbody
  exact ⟨k', ⟨hvalid, hdoes⟩, hk'⟩

theorem Depicts.serves_createRecipe {result : Expected Recipe} (h : Depicts m k)
    (hvalid : ¬ ServiceOperation.Invalid (.createRecipe recipe))
    (hrun : runOn (ServiceOperation.run (.createRecipe recipe)) m = (.ok result, m')) :
    Served k (.createRecipe recipe) result m' := by
  rw [ServiceOperation.run, RecipeService.createRecipe, invalid_recipe_iff.mp hvalid] at hrun
  change runOn (sqliteRecipeRepository.createRecipe recipe) m = _ at hrun
  rw [createRecipe_eq_createThenGet] at hrun
  refine h.createThenGet (.createRecipe recipe) (.createRecipe recipe) hvalid rfl rfl
    (createRecipe_atomic recipe) getRecipe_readsAs ?_ hrun
  intro recipeId m₁ hcreate
  obtain ⟨created, k', hentry, hdoes, hk'⟩ := h.createRecipe hcreate
  refine ⟨created, k', hdoes, hk', ?_⟩
  rw [Read.sql, selectRecipeById_fetch hk'.rests.1, findRecipe_eq_recipeEntry hk'.rests.1, hentry]

theorem Depicts.serves_updateRecipe {result : Expected Unit} (h : Depicts m k)
    (hvalid : ¬ ServiceOperation.Invalid (.updateRecipe recipeId recipe))
    (hrun : runOn (ServiceOperation.run (.updateRecipe recipeId recipe)) m = (.ok result, m')) :
    Served k (.updateRecipe recipeId recipe) result m' := by
  rw [ServiceOperation.run, RecipeService.updateRecipe, invalid_recipe_iff.mp hvalid] at hrun
  refine h.change (fun k' result => k.Serves (.updateRecipe recipeId recipe) k' result)
    (.updateRecipe recipeId recipe) rfl (updateRecipe_atomic recipeId recipe)
    (updateRecipe_exact recipe) (fun _ => serves_failed hvalid)
    (fun hstored _ => serves_missing hvalid (h.misses_recipe hstored)) ?_ hrun
  intro hbody
  obtain ⟨k', hdoes, hk'⟩ := h.updateRecipe hbody
  exact ⟨k', ⟨hvalid, hdoes⟩, hk'⟩

theorem Depicts.serves_deleteRecipe {result : Expected Unit} (h : Depicts m k)
    (hrun : runOn (ServiceOperation.run (.deleteRecipe recipeId)) m = (.ok result, m')) :
    Served k (.deleteRecipe recipeId) result m' := by
  change runOn (do return RecipeService.requireFound _ (← guarded (.ok <$>
    DBManager.deleteRecipe recipeId))) m = _ at hrun
  have hvalid : ¬ ServiceOperation.Invalid (.deleteRecipe recipeId) := False.elim
  refine h.change (fun k' result => k.Serves (.deleteRecipe recipeId) k' result)
    (.deleteRecipe recipeId) rfl (deleteRecipe_atomic recipeId) deleteRecipe_exact
    (fun _ => serves_failed hvalid)
    (fun hstored _ => serves_missing hvalid (h.misses_recipe hstored)) ?_ hrun
  intro hbody
  obtain ⟨k', hdoes, hk'⟩ := h.deleteRecipe hbody
  exact ⟨k', ⟨hvalid, hdoes⟩, hk'⟩

/-! ### The reads -/

theorem Depicts.serves_getProduct {result : Expected (Option Product)} (h : Depicts m k)
    (hrun : runOn (ServiceOperation.run (.getProduct productId)) m = (.ok result, m')) :
    Served k (.getProduct productId) result m' := by
  change runOn (guarded (.ok <$> DBManager.getProduct productId)) m = _ at hrun
  refine h.answer (.getProduct productId) False.elim (getProduct_readsAs productId) ?_ hrun
  rw [selectProductById_rows, findProduct_eq_productEntry, ← h.products]
  exact ⟨rfl, rfl⟩

theorem Depicts.serves_getProducts {result : Expected (List Product)} (h : Depicts m k)
    (hrun : runOn (ServiceOperation.run .getProducts) m = (.ok result, m')) :
    Served k .getProducts result m' := by
  change runOn (guarded (.ok <$> DBManager.getAllProducts)) m = _ at hrun
  refine h.answer .getProducts False.elim getAllProducts_readsAs ?_ hrun
  have hlisted := (getAllProducts_readsAs.reads m.db.tables).unique (getAllProducts_reads _)
  rw [hlisted]
  exact ⟨rfl, h.lists_products, storedProducts_amounts h.rests.1⟩

theorem Depicts.serves_getRecipe {result : Expected (Option Recipe)} (h : Depicts m k)
    (hrun : runOn (ServiceOperation.run (.getRecipe recipeId)) m = (.ok result, m')) :
    Served k (.getRecipe recipeId) result m' := by
  change runOn (guarded (.ok <$> DBManager.getRecipe recipeId)) m = _ at hrun
  refine h.answer (.getRecipe recipeId) False.elim (getRecipe_readsAs recipeId) ?_ hrun
  rw [Read.sql, selectRecipeById_fetch h.rests.1, findRecipe_eq_recipeEntry h.rests.1, ← h.recipes]
  exact ⟨rfl, rfl⟩

theorem Depicts.serves_getRecipes {result : Expected (List Recipe)} (h : Depicts m k)
    (hrun : runOn (ServiceOperation.run .getRecipes) m = (.ok result, m')) :
    Served k .getRecipes result m' := by
  change runOn (guarded (.ok <$> DBManager.getAllRecipes)) m = _ at hrun
  refine h.answer .getRecipes False.elim (fetchRecipes_readsAs _) ?_ hrun
  rw [Read.sql, selectAllRecipes_fetch h.rests.1]
  exact ⟨rfl, h.lists_recipes, storedRecipes_names h.rests.1⟩

theorem Depicts.serves_getCookableRecipes {result : Expected (List Recipe)} (h : Depicts m k)
    (hrun : runOn (ServiceOperation.run .getCookableRecipes) m = (.ok result, m')) :
    Served k .getCookableRecipes result m' := by
  change runOn (guarded (.ok <$> DBManager.getCookableRecipes)) m = _ at hrun
  refine h.answer .getCookableRecipes False.elim (fetchRecipes_readsAs _) ?_ hrun
  rw [Read.sql, selectCookableRecipes_fetch h.rests.1]
  exact h.cookable_recipes

/-! ### Any call -/

/-- What validation refuses does nothing. -/
theorem run_invalid {op : ServiceOperation} (h : op.Invalid) :
    ∃ error, error.code = .validation ∧ op.run = pure (.error error) := by
  cases op with
  | createProduct product =>
      cases hvalidated : RecipeService.validateProduct product with
      | ok => exact absurd h (unfit_iff.mpr hvalidated)
      | error error =>
          refine ⟨error, RecipeService.validateProduct_error hvalidated, ?_⟩
          rw [ServiceOperation.run, RecipeService.createProduct, hvalidated]
  | updateProduct productId product =>
      cases hvalidated : RecipeService.validateProduct product with
      | ok => exact absurd h (unfit_iff.mpr hvalidated)
      | error error =>
          refine ⟨error, RecipeService.validateProduct_error hvalidated, ?_⟩
          rw [ServiceOperation.run, RecipeService.updateProduct, hvalidated]
  | createRecipe recipe =>
      cases hvalidated : RecipeService.validateRecipe recipe with
      | ok => exact absurd h (invalid_recipe_iff.mpr hvalidated)
      | error error =>
          refine ⟨error, RecipeService.validateRecipe_error hvalidated, ?_⟩
          rw [ServiceOperation.run, RecipeService.createRecipe, hvalidated]
  | updateRecipe recipeId recipe =>
      cases hvalidated : RecipeService.validateRecipe recipe with
      | ok => exact absurd h (invalid_recipe_iff.mpr hvalidated)
      | error error =>
          refine ⟨error, RecipeService.validateRecipe_error hvalidated, ?_⟩
          rw [ServiceOperation.run, RecipeService.updateRecipe, hvalidated]
  | _ => exact h.elim

/-- **A call is a step of the kitchen**, whatever SQLite does. -/
theorem Depicts.served {op : ServiceOperation} (h : Depicts m k) {result : Expected op.Result}
    {environment : List Db.StepOutcome} (hcall : op.call environment m = (result, m')) :
    Served k op result m' := by
  have hrun : runOn op.run (m.withEnvironment environment) = (.ok result, m') := by
    rw [op.runOn_eq_call, hcall]
  have h : Depicts (m.withEnvironment environment) k := h.of_db rfl rfl
  by_cases hinvalid : op.Invalid
  -- validation refuses before SQLite is asked
  · obtain ⟨error, hcode, hop⟩ := run_invalid hinvalid
    rw [hop, runOn_pure] at hrun
    cases hrun
    refine ⟨k, ?_, h⟩
    show k.Declines op error.code k
    rw [hcode]
    exact .invalid hinvalid
  cases op with
  | createProduct product => exact h.serves_createProduct hinvalid hrun
  | getProduct productId => exact h.serves_getProduct hrun
  | getProducts => exact h.serves_getProducts hrun
  | updateProduct productId product => exact h.serves_updateProduct hinvalid hrun
  | deleteProduct productId => exact h.serves_deleteProduct hrun
  | createRecipe recipe => exact h.serves_createRecipe hinvalid hrun
  | getRecipe recipeId => exact h.serves_getRecipe hrun
  | getRecipes => exact h.serves_getRecipes hrun
  | getCookableRecipes => exact h.serves_getCookableRecipes hrun
  | updateRecipe recipeId recipe => exact h.serves_updateRecipe hinvalid hrun
  | deleteRecipe recipeId => exact h.serves_deleteRecipe hrun

/-- **The kitchen simulates the service.** -/
theorem kitchen_simulates : System.Simulates Depicts serviceRuns kitchenRuns := by
  intro m answered m' k hk hstep
  obtain ⟨environment, hcall⟩ := hstep
  exact hk.served hcall

end

/-- **Every history of the service is a history of a kitchen**: each manager that can be reached
depicts one, and whatever the service answers from there on, and wherever SQLite fails, the kitchen
can answer, ending in what the manager then depicts. -/
theorem service_refines_kitchen {m : DBManager} (h : managerRuns.Reachable m) :
    (∃ k, Depicts m k) ∧ ∀ k history m', Depicts m k → serviceRuns.Run m history m' →
      ∃ k', kitchenRuns.Run k history k' ∧ Depicts m' k' :=
  ⟨⟨_, depicts_ofStore (rests_valid h)⟩, fun _ _ _ hk hrun => kitchen_simulates.run hk hrun⟩

/-- What the service answers is a step of it. -/
theorem serviceRuns_step {op : ServiceOperation} {environment : List Db.StepOutcome}
    {m : DBManager} {result : Expected op.Result} (h : (op.call environment m).1 = result) :
    serviceRuns.step m ⟨op, result⟩ (op.call environment m).2 := ⟨environment, Prod.ext h rfl⟩

/-- The pancakes are deleted, and water is what is left to cook. -/
theorem service_refines_kitchen_water : ∃ k k', Depicts (afterCalls kitchenCalls) k ∧
    kitchenRuns.Run k [⟨.deleteRecipe 1, .ok ()⟩,
      ⟨.getCookableRecipes, .ok [{ name := "water", id := some 2 }]⟩] k' := by
  obtain ⟨⟨k, hk⟩, hruns⟩ := service_refines_kitchen (reachable_afterCalls kitchenCalls)
  have hdelete : ((ServiceOperation.deleteRecipe 1).call [] (afterCalls kitchenCalls)).1 = .ok () := by
    decide +kernel
  have hcook : (ServiceOperation.getCookableRecipes.call []
      ((ServiceOperation.deleteRecipe 1).call [] (afterCalls kitchenCalls)).2).1 =
        .ok [{ name := "water", id := some 2 }] := by
    decide +kernel
  have hrun := System.Run.step (.step .here (serviceRuns_step hdelete)) (serviceRuns_step hcook)
  obtain ⟨k', hrun', -⟩ := hruns k _ _ hk hrun
  exact ⟨k, k', hk, hrun'⟩

end RecipesCore.App
