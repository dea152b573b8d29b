import RecipesCore.App.Refinement

/-!
# The answers of a history agree

What one answer says of an id, a later one repeats until an update or a delete of that id is
answered with success; after a delete it is never spoken of again. This is said of the service's own
answers, over any history and whatever fails in it, and is read off the kitchen.
-/

namespace RecipesCore.App

open RecipesCore.Db
open RecipesCore.Logic
open RecipesCore.Relational
open RecipesCore.Types

/-! ## What an answer says -/

/-- A read says what a product id names. -/
inductive ShowsProduct (productId : Int) : Answered → Option Product → Prop where
  | found {found : Option Product} : ShowsProduct productId ⟨.getProduct productId, .ok found⟩ found
  | listed {products : List Product} {product : Product} : product ∈ products →
      product.id = some productId →
      ShowsProduct productId ⟨.getProducts, .ok products⟩ (some product)
  | unlisted {products : List Product} : (∀ product ∈ products, product.id ≠ some productId) →
      ShowsProduct productId ⟨.getProducts, .ok products⟩ none

/-- An answer says what a product id names from then on. -/
inductive LeavesProduct (productId : Int) : Answered → Option Product → Prop where
  | shown {answered : Answered} {found : Option Product} : ShowsProduct productId answered found →
      LeavesProduct productId answered found
  | created {product created : Product} : created.id = some productId →
      LeavesProduct productId ⟨.createProduct product, .ok created⟩ (some created)
  | updated {product : Product} : LeavesProduct productId
      ⟨.updateProduct productId product, .ok ()⟩ (some (keptProduct product productId))

inductive ShowsRecipe (recipeId : Int) : Answered → Option Recipe → Prop where
  | found {found : Option Recipe} : ShowsRecipe recipeId ⟨.getRecipe recipeId, .ok found⟩ found
  | listed {recipes : List Recipe} {recipe : Recipe} : recipe ∈ recipes →
      recipe.id = some recipeId → ShowsRecipe recipeId ⟨.getRecipes, .ok recipes⟩ (some recipe)
  | unlisted {recipes : List Recipe} : (∀ recipe ∈ recipes, recipe.id ≠ some recipeId) →
      ShowsRecipe recipeId ⟨.getRecipes, .ok recipes⟩ none
  | cookable {recipes : List Recipe} {recipe : Recipe} : recipe ∈ recipes →
      recipe.id = some recipeId →
      ShowsRecipe recipeId ⟨.getCookableRecipes, .ok recipes⟩ (some recipe)

inductive LeavesRecipe (recipeId : Int) : Answered → Option Recipe → Prop where
  | shown {answered : Answered} {found : Option Recipe} : ShowsRecipe recipeId answered found →
      LeavesRecipe recipeId answered found
  | created {recipe created : Recipe} : created.id = some recipeId →
      LeavesRecipe recipeId ⟨.createRecipe recipe, .ok created⟩ (some created)
  | updated {recipe : Recipe} {ingredients : List Product} :
      Canonical recipe.ingredients ingredients → LeavesRecipe recipeId
        ⟨.updateRecipe recipeId recipe, .ok ()⟩ (some (keptRecipe recipe ingredients recipeId))

/-- A successful update or delete of the id. -/
inductive ChangesProduct (productId : Int) : Answered → Prop where
  | updated {product : Product} :
      ChangesProduct productId ⟨.updateProduct productId product, .ok ()⟩
  | deleted : ChangesProduct productId ⟨.deleteProduct productId, .ok ()⟩

inductive ChangesRecipe (recipeId : Int) : Answered → Prop where
  | updated {recipe : Recipe} : ChangesRecipe recipeId ⟨.updateRecipe recipeId recipe, .ok ()⟩
  | deleted : ChangesRecipe recipeId ⟨.deleteRecipe recipeId, .ok ()⟩

def DeletesProduct (productId : Int) (answered : Answered) : Prop :=
  answered = ⟨.deleteProduct productId, .ok ()⟩

def DeletesRecipe (recipeId : Int) (answered : Answered) : Prop :=
  answered = ⟨.deleteRecipe recipeId, .ok ()⟩

/-! ## What a step of the kitchen does to an id in use -/

section

variable {k k' : Kitchen} {op : ServiceOperation} {productId recipeId : Int}

theorem Kitchen.Does.products_steady {result : op.Result} (h : k.Does op result k')
    (hcounted : productId ≤ k.products.issued) :
    Catalogue.Steady (ChangesProduct productId ⟨op, .ok result⟩) productId k.products
      k'.products := by
  cases op with
  | createProduct product =>
      obtain ⟨-, id, -, hadds⟩ := h
      exact hadds.steady hcounted
  | updateProduct id product =>
      apply h.2.steady hcounted
      rintro rfl
      exact .updated
  | deleteProduct id =>
      apply h.2.steady hcounted
      rintro rfl
      exact .deleted
  | createRecipe _ | updateRecipe _ _ | deleteRecipe _ =>
      rw [h.1]
      exact .refl hcounted
  | _ =>
      obtain ⟨rfl, -⟩ := h
      exact .refl hcounted

theorem Kitchen.Does.recipes_steady {result : op.Result} (h : k.Does op result k')
    (hcounted : recipeId ≤ k.recipes.issued) :
    Catalogue.Steady (ChangesRecipe recipeId ⟨op, .ok result⟩) recipeId k.recipes k'.recipes := by
  cases op with
  | createRecipe recipe =>
      obtain ⟨-, ingredients, id, -, -, hadds⟩ := h
      exact hadds.steady hcounted
  | updateRecipe id recipe =>
      obtain ⟨-, ingredients, -, hreplaces⟩ := h
      apply hreplaces.steady hcounted
      rintro rfl
      exact .updated
  | deleteRecipe id =>
      apply h.2.steady hcounted
      rintro rfl
      exact .deleted
  | createProduct _ | updateProduct _ _ | deleteProduct _ =>
      rw [h.1]
      exact .refl hcounted
  | _ =>
      obtain ⟨rfl, -⟩ := h
      exact .refl hcounted

/-- An error leaves the kitchen, or one with an addition. -/
theorem Kitchen.Declines.cases_of {code : ErrorCode} (h : k.Declines op code k') :
    k' = k ∨ ∃ result, op.creates = true ∧ k.Does op result k' := by
  cases h with
  | invalid => exact Or.inl rfl
  | missing => exact Or.inl rfl
  | failed => exact Or.inl rfl
  | unconfirmed _ hcreates hdoes => exact Or.inr ⟨_, hcreates, hdoes⟩

theorem Kitchen.Serves.products_steady {result : Expected op.Result} (h : k.Serves op k' result)
    (hcounted : productId ≤ k.products.issued) :
    Catalogue.Steady (ChangesProduct productId ⟨op, result⟩) productId k.products k'.products := by
  cases result with
  | ok result => exact h.2.products_steady hcounted
  | error error =>
      rcases Declines.cases_of h with rfl | ⟨result, hcreates, hdoes⟩
      · exact .refl hcounted
      · have hsteady := hdoes.products_steady hcounted
        refine ⟨hsteady.counted, fun _ => hsteady.same fun hchanges => ?_, hsteady.none⟩
        cases op with
        | createProduct _ | createRecipe _ => cases hchanges
        | _ => cases hcreates

theorem Kitchen.Serves.recipes_steady {result : Expected op.Result} (h : k.Serves op k' result)
    (hcounted : recipeId ≤ k.recipes.issued) :
    Catalogue.Steady (ChangesRecipe recipeId ⟨op, result⟩) recipeId k.recipes k'.recipes := by
  cases result with
  | ok result => exact h.2.recipes_steady hcounted
  | error error =>
      rcases Declines.cases_of h with rfl | ⟨result, hcreates, hdoes⟩
      · exact .refl hcounted
      · have hsteady := hdoes.recipes_steady hcounted
        refine ⟨hsteady.counted, fun _ => hsteady.same fun hchanges => ?_, hsteady.none⟩
        cases op with
        | createProduct _ | createRecipe _ => cases hchanges
        | _ => cases hcreates

/-! ## What an answer says of the kitchen -/

variable {result : Expected op.Result}

theorem ShowsProduct.entry {found : Option Product}
    (h : ShowsProduct productId ⟨op, result⟩ found) (hserves : k.Serves op k' result) :
    k' = k ∧ k.products.entry productId = found := by
  cases h with
  | found =>
      obtain ⟨-, rfl, rfl⟩ := hserves
      exact ⟨rfl, rfl⟩
  | listed hmem hid =>
      obtain ⟨-, rfl, hlists, -⟩ := hserves
      exact ⟨rfl, (Catalogue.entry_of_lists hlists).mpr ⟨hmem, hid⟩⟩
  | unlisted hnone =>
      obtain ⟨-, rfl, hlists, -⟩ := hserves
      refine ⟨rfl, ?_⟩
      by_contra hsome
      obtain ⟨product, hproduct⟩ := Option.ne_none_iff_exists'.mp hsome
      obtain ⟨hmem, hid⟩ := (Catalogue.entry_of_lists hlists).mp hproduct
      exact hnone product hmem hid

theorem LeavesProduct.entry {found : Option Product}
    (h : LeavesProduct productId ⟨op, result⟩ found) (hserves : k.Serves op k' result) :
    k'.products.entry productId = found := by
  cases h with
  | shown hshows =>
      obtain ⟨rfl, hentry⟩ := hshows.entry hserves
      exact hentry
  | created hid =>
      obtain ⟨-, -, id, rfl, hadds⟩ := hserves
      obtain rfl := Option.some_inj.mp hid
      rw [hadds.entry_eq, Function.update_self]
  | updated =>
      obtain ⟨-, -, hreplaces⟩ := hserves
      rw [hreplaces.entry_eq, Function.update_self]

/-- Only what there is can be changed. -/
theorem ChangesProduct.entry (h : ChangesProduct productId ⟨op, result⟩)
    (hserves : k.Serves op k' result) : k.products.entry productId ≠ none := by
  cases h with
  | updated =>
      obtain ⟨-, -, -, ⟨old, hold⟩, -⟩ := hserves
      simp [hold]
  | deleted =>
      obtain ⟨-, -, hold, -⟩ := hserves
      exact hold

theorem DeletesProduct.gone (h : DeletesProduct productId ⟨op, result⟩)
    (hserves : k.Serves op k' result) :
    productId ≤ k'.products.issued ∧ k'.products.entry productId = none := by
  cases h
  obtain ⟨-, -, hremoves⟩ := hserves
  have hentry := hremoves.entry_eq
  obtain ⟨hold, hnew⟩ := hremoves
  obtain ⟨product, hproduct⟩ := Option.ne_none_iff_exists'.mp hold
  rw [hnew] at hentry ⊢
  exact ⟨k.products.counted hproduct, by rw [hentry, Function.update_self]⟩

/-- What a list is kept as, it is kept as alone. -/
theorem Canonical.unique {listed ingredients ingredients' : List Product}
    (h : Canonical listed ingredients) (h' : Canonical listed ingredients') :
    ingredients = ingredients' := by
  have : Std.Irrefl fun a b => toLex (productKey a) < toLex (productKey b) :=
    ⟨fun a => lt_irrefl _⟩
  have : Std.Antisymm fun a b => toLex (productKey a) < toLex (productKey b) :=
    ⟨fun a b hab hba => absurd hba (lt_asymm hab)⟩
  apply h.increasing.eq_of_mem_iff h'.increasing
  intro ingredient
  rw [h.mem_iff, h'.mem_iff]

theorem ShowsRecipe.entry {found : Option Recipe} (h : ShowsRecipe recipeId ⟨op, result⟩ found)
    (hserves : k.Serves op k' result) : k' = k ∧ k.recipes.entry recipeId = found := by
  cases h with
  | found =>
      obtain ⟨-, rfl, rfl⟩ := hserves
      exact ⟨rfl, rfl⟩
  | listed hmem hid =>
      obtain ⟨-, rfl, hlists, -⟩ := hserves
      exact ⟨rfl, (Catalogue.entry_of_lists hlists).mpr ⟨hmem, hid⟩⟩
  | unlisted hnone =>
      obtain ⟨-, rfl, hlists, -⟩ := hserves
      refine ⟨rfl, ?_⟩
      by_contra hsome
      obtain ⟨recipe, hrecipe⟩ := Option.ne_none_iff_exists'.mp hsome
      obtain ⟨hmem, hid⟩ := (Catalogue.entry_of_lists hlists).mp hrecipe
      exact hnone recipe hmem hid
  | cookable hmem hid =>
      obtain ⟨-, rfl, -, hcookable⟩ := hserves
      obtain ⟨⟨id, hentry⟩, -⟩ := (hcookable _).mp hmem
      have hlabel := k'.recipes.labelled hentry
      rw [hid, Option.some_inj] at hlabel
      exact ⟨rfl, hlabel ▸ hentry⟩

theorem LeavesRecipe.entry {found : Option Recipe} (h : LeavesRecipe recipeId ⟨op, result⟩ found)
    (hserves : k.Serves op k' result) : k'.recipes.entry recipeId = found := by
  cases h with
  | shown hshows =>
      obtain ⟨rfl, hentry⟩ := hshows.entry hserves
      exact hentry
  | created hid =>
      obtain ⟨-, -, ingredients, id, -, rfl, hadds⟩ := hserves
      obtain rfl := Option.some_inj.mp hid
      rw [hadds.entry_eq, Function.update_self]
  | updated hcanonical =>
      obtain ⟨-, -, ingredients, hcanonical', hreplaces⟩ := hserves
      rw [hreplaces.entry_eq, Function.update_self, hcanonical.unique hcanonical']

theorem ChangesRecipe.entry (h : ChangesRecipe recipeId ⟨op, result⟩)
    (hserves : k.Serves op k' result) : k.recipes.entry recipeId ≠ none := by
  cases h with
  | updated =>
      obtain ⟨-, -, ingredients, -, -, ⟨old, hold⟩, -⟩ := hserves
      simp [hold]
  | deleted =>
      obtain ⟨-, -, hold, -⟩ := hserves
      exact hold

theorem DeletesRecipe.gone (h : DeletesRecipe recipeId ⟨op, result⟩)
    (hserves : k.Serves op k' result) :
    recipeId ≤ k'.recipes.issued ∧ k'.recipes.entry recipeId = none := by
  cases h
  obtain ⟨-, -, hremoves⟩ := hserves
  have hentry := hremoves.entry_eq
  obtain ⟨hold, hnew⟩ := hremoves
  obtain ⟨recipe, hrecipe⟩ := Option.ne_none_iff_exists'.mp hold
  rw [hnew] at hentry ⊢
  exact ⟨k.recipes.counted hrecipe, by rw [hentry, Function.update_self]⟩

end

/-! ## Coherence -/

/-- The answers `first`, those in `between` and `last` agree about the entries of one kind.

* An entry that the first leaves is the one that the last shows, if none in between changes it.
* Under an id that the first deletes the last leaves no entry, and it finds none to change. -/
structure Coherent {ι α : Type} (leaves shows : Int → ι → Option α → Prop)
    (changes deletes : Int → ι → Prop) (first : ι) (between : List ι) (last : ι) : Prop where
  stays : ∀ id a found, leaves id first (some a) → (∀ l ∈ between, ¬ changes id l) →
    shows id last found → found = some a
  gone : ∀ id, deletes id first → (∀ a, ¬ leaves id last (some a)) ∧ ¬ changes id last

/-- What the answers of a system of kitchens say of one kind of entries, and what its steps do. -/
structure Speaks {ι α κ : Type} {label : α → Option Int} {key : α → κ} (S : System Kitchen ι)
    (catalogue : Kitchen → Catalogue label key) (leaves shows : Int → ι → Option α → Prop)
    (changes deletes : Int → ι → Prop) : Prop where
  steady : ∀ ⦃id k l k'⦄, S.step k l k' → id ≤ (catalogue k).issued →
    Catalogue.Steady (changes id l) id (catalogue k) (catalogue k')
  leaves : ∀ ⦃id found k l k'⦄, leaves id l found → S.step k l k' → (catalogue k').entry id = found
  shows : ∀ ⦃id found k l k'⦄, shows id l found → S.step k l k' → (catalogue k).entry id = found
  changes : ∀ ⦃id k l k'⦄, changes id l → S.step k l k' → (catalogue k).entry id ≠ none
  deletes : ∀ ⦃id k l k'⦄, deletes id l → S.step k l k' →
    id ≤ (catalogue k').issued ∧ (catalogue k').entry id = none

/-- **If each answer is true, all of them agree.** -/
theorem Speaks.coherent {ι α κ : Type} {label : α → Option Int} {key : α → κ} {S : System Kitchen ι}
    {catalogue : Kitchen → Catalogue label key} {leaves shows : Int → ι → Option α → Prop}
    {changes deletes : Int → ι → Prop} (h : Speaks S catalogue leaves shows changes deletes)
    {k k₁ k₂ k₃ : Kitchen} {first last : ι} {between : List ι} (hfirst : S.step k first k₁)
    (hrun : S.Run k₁ between k₂) (hlast : S.step k₂ last k₃) :
    Coherent leaves shows changes deletes first between last where
  stays := by
    intro id a found hleft hunchanged hshown
    have hentry : (catalogue k₁).entry id = some a := h.leaves hleft hfirst
    have hkept : id ≤ (catalogue k₂).issued ∧ (catalogue k₂).entry id = some a := by
      refine System.Run.keeps (I := fun k => id ≤ (catalogue k).issued ∧
        (catalogue k).entry id = some a) (C := fun l => ¬ changes id l) ?_
        ⟨(catalogue k₁).counted hentry, hentry⟩ hrun hunchanged
      rintro k l k' hl ⟨hcounted, hk⟩ hstep
      have hsteady := h.steady hstep hcounted
      exact ⟨hsteady.counted, (hsteady.same hl).trans hk⟩
    rw [← h.shows hshown hlast, hkept.2]
  gone := by
    intro id hdeleted
    have hkept : id ≤ (catalogue k₂).issued ∧ (catalogue k₂).entry id = none := by
      refine System.Run.keeps (I := fun k => id ≤ (catalogue k).issued ∧
        (catalogue k).entry id = none) (C := fun _ => True) ?_ (h.deletes hdeleted hfirst) hrun
        fun _ _ => trivial
      rintro k l k' - ⟨hcounted, hk⟩ hstep
      have hsteady := h.steady hstep hcounted
      exact ⟨hsteady.counted, hsteady.none hk⟩
    constructor
    · intro a hleft
      have hnone := (h.steady hlast hkept.1).none hkept.2
      rw [h.leaves hleft hlast] at hnone
      cases hnone
    · intro hchanged
      exact h.changes hchanged hlast hkept.2

theorem speaks_products : Speaks kitchenRuns Kitchen.products LeavesProduct ShowsProduct
    ChangesProduct DeletesProduct where
  steady _ _ _ _ h := h.products_steady
  leaves _ _ _ _ _ hleaves h := hleaves.entry h
  shows _ _ _ _ _ hshows h := (hshows.entry h).2
  changes _ _ _ _ hchanges h := hchanges.entry h
  deletes _ _ _ _ hdeletes h := hdeletes.gone h

theorem speaks_recipes : Speaks kitchenRuns Kitchen.recipes LeavesRecipe ShowsRecipe ChangesRecipe
    DeletesRecipe where
  steady _ _ _ _ h := h.recipes_steady
  leaves _ _ _ _ _ hleaves h := hleaves.entry h
  shows _ _ _ _ _ hshows h := (hshows.entry h).2
  changes _ _ _ _ hchanges h := hchanges.entry h
  deletes _ _ _ _ hdeletes h := hdeletes.gone h

/-- **The answers of every history agree**: what one leaves under an id, a later one shows unless an
update or delete of the id is answered with success in between; and what one deletes, none shows,
creates, updates or deletes again. -/
theorem answers_cohere {m m₁ m₂ m₃ : DBManager} {first last : Answered} {between : List Answered}
    (h : managerRuns.Reachable m) (hfirst : serviceRuns.step m first m₁)
    (hrun : serviceRuns.Run m₁ between m₂) (hlast : serviceRuns.step m₂ last m₃) :
    Coherent LeavesProduct ShowsProduct ChangesProduct DeletesProduct first between last ∧
      Coherent LeavesRecipe ShowsRecipe ChangesRecipe DeletesRecipe first between last := by
  obtain ⟨k₁, hfirst, hk₁⟩ := kitchen_simulates (depicts_ofStore (rests_valid h)) hfirst
  obtain ⟨k₂, hrun, hk₂⟩ := kitchen_simulates.run hk₁ hrun
  obtain ⟨k₃, hlast, -⟩ := kitchen_simulates hk₂ hlast
  exact ⟨speaks_products.coherent hfirst hrun hlast, speaks_recipes.coherent hfirst hrun hlast⟩

/-- Rice is stored, and a delete that SQLite fails does not change that. -/
theorem answers_cohere_rice :
    let rice : Product := { name := "rice", amount := 800, dimension := .gramm }
    let error : Error := ⟨.storage, "disk I/O error"⟩
    ∃ m₁ m₂ m₃ found,
      serviceRuns.step (afterCalls kitchenCalls)
        ⟨.createProduct rice, .ok { rice with id := some 2 }⟩ m₁ ∧
      serviceRuns.step m₁ ⟨.deleteProduct 2, .error error⟩ m₂ ∧
      serviceRuns.step m₂ ⟨.getProduct 2, .ok found⟩ m₃ ∧
      found = some { rice with id := some 2 } := by
  intro rice error
  have hcreate : ((ServiceOperation.createProduct rice).call [] (afterCalls kitchenCalls)).1 =
      .ok { rice with id := some 2 } := by
    decide +kernel
  have hdelete : ((ServiceOperation.deleteProduct 2).call [.fail ⟨.other 10, error.message⟩]
      ((ServiceOperation.createProduct rice).call [] (afterCalls kitchenCalls)).2).1 =
        .error error := by
    decide +kernel
  have hget : ((ServiceOperation.getProduct 2).call []
      ((ServiceOperation.deleteProduct 2).call [.fail ⟨.other 10, error.message⟩]
        ((ServiceOperation.createProduct rice).call [] (afterCalls kitchenCalls)).2).2).1.isOk =
          true := by
    decide +kernel
  cases hfound : ((ServiceOperation.getProduct 2).call []
      ((ServiceOperation.deleteProduct 2).call [.fail ⟨.other 10, error.message⟩]
        ((ServiceOperation.createProduct rice).call [] (afterCalls kitchenCalls)).2).2).1 with
  | error _ =>
      rw [hfound] at hget
      cases hget
  | ok found =>
      have hcoherent := (answers_cohere (reachable_afterCalls kitchenCalls)
        (serviceRuns_step hcreate) (.step .here (serviceRuns_step hdelete))
        (serviceRuns_step hfound)).1
      refine ⟨_, _, _, found, serviceRuns_step hcreate, serviceRuns_step hdelete,
        serviceRuns_step hfound, ?_⟩
      apply hcoherent.stays 2 _ _ (.created rfl) _ .found
      intro l hl
      obtain rfl := List.mem_singleton.mp hl
      nofun

end RecipesCore.App
