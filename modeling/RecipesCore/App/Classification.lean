import RecipesCore.App.Submissions
import RecipesCore.Db.Causes
import RecipesCore.Db.Mirror

/-!
# How a write's result is classified

What the error code of a service write should say (`verdict`): an invalid argument, an id that is
not stored, a name or key that is taken, in this order, and else success. The repository turns every
exception into `Storage`, so the service meets this exactly where no uniqueness constraint decides.
-/

namespace RecipesCore.App

open RecipesCore.Db RecipesCore.Db.DBManager
open RecipesCore.Logic RecipesCore.Logic.Program
open RecipesCore.Sqlite
open RecipesCore.Types

/-! ## The verdict -/

/-- A name is missing, or an amount is negative. -/
def Unfit (product : Product) : Prop := product.name = "" ∨ product.amount.toInt < 0

instance (product : Product) : Decidable (Unfit product) := inferInstanceAs (Decidable (_ ∨ _))

instance (tables : Tables) (product : Product) : Decidable (KeyUsed tables product) :=
  List.decidableBEx _ _

instance (tables : Tables) (productId : Int) (product : Product) :
    Decidable (KeyUsedBeside tables productId product) := List.decidableBEx _ _

instance (tables : Tables) (name : String) : Decidable (NameUsed tables name) :=
  List.decidableBEx _ _

instance (tables : Tables) (recipeId : Int) (name : String) :
    Decidable (NameUsedBeside tables recipeId name) := List.decidableBEx _ _

namespace ServiceOperation

def Invalid : ServiceOperation → Prop
  | .createProduct product | .updateProduct _ product => Unfit product
  | .createRecipe recipe | .updateRecipe _ recipe =>
      recipe.name = "" ∨ ∃ i ∈ recipe.ingredients, Unfit i
  | _ => False

/-- The id is not stored. -/
def Missing (tables : Tables) : ServiceOperation → Prop
  | .updateProduct productId _ | .deleteProduct productId => ¬ HasProduct productId tables
  | .updateRecipe recipeId _ | .deleteRecipe recipeId => ¬ HasRecipe recipeId tables
  | _ => False

/-- Two products would have one key, or two recipes one name. -/
def Clashes (tables : Tables) : ServiceOperation → Prop
  | .createProduct product => KeyUsed tables product
  | .updateProduct productId product => KeyUsedBeside tables productId product
  | .createRecipe recipe => NameUsed tables recipe.name
  | .updateRecipe recipeId recipe => NameUsedBeside tables recipeId recipe.name
  | _ => False

instance (op : ServiceOperation) : Decidable op.Invalid :=
  match op with
  | .createProduct _ | .updateProduct _ _ => inferInstanceAs (Decidable (Unfit _))
  | .createRecipe recipe | .updateRecipe _ recipe =>
      inferInstanceAs (Decidable (recipe.name = "" ∨ ∃ i ∈ recipe.ingredients, Unfit i))
  | .getProduct _ | .getProducts | .deleteProduct _ | .getRecipe _ | .getRecipes
  | .getCookableRecipes | .deleteRecipe _ => isFalse id

instance (op : ServiceOperation) (tables : Tables) : Decidable (op.Missing tables) :=
  match op with
  | .updateProduct productId _ | .deleteProduct productId =>
      inferInstanceAs (Decidable (¬ HasProduct productId tables))
  | .updateRecipe recipeId _ | .deleteRecipe recipeId =>
      inferInstanceAs (Decidable (¬ HasRecipe recipeId tables))
  | .createProduct _ | .getProduct _ | .getProducts | .createRecipe _ | .getRecipe _ | .getRecipes
  | .getCookableRecipes => isFalse id

instance (op : ServiceOperation) (tables : Tables) : Decidable (op.Clashes tables) :=
  match op with
  | .createProduct product => inferInstanceAs (Decidable (KeyUsed tables product))
  | .updateProduct productId product =>
      inferInstanceAs (Decidable (KeyUsedBeside tables productId product))
  | .createRecipe recipe => inferInstanceAs (Decidable (NameUsed tables recipe.name))
  | .updateRecipe recipeId recipe =>
      inferInstanceAs (Decidable (NameUsedBeside tables recipeId recipe.name))
  | .getProduct _ | .getProducts | .deleteProduct _ | .getRecipe _ | .getRecipes
  | .getCookableRecipes | .deleteRecipe _ => isFalse id

/-- The error code a write should end in; `none` is success. -/
def verdict (tables : Tables) (op : ServiceOperation) : Option ErrorCode :=
  if op.Invalid then some .validation
  else if op.Missing tables then some .notFound
  else if op.Clashes tables then some .conflict
  else none

/-- The step in which the write's uniqueness constraint is checked, and the highest id used where
that step inserts. -/
def uniquenessStep (sequences : Sequences) : ServiceOperation → Nat × Option Int
  | .createProduct _ => (0, some sequences.products)
  | .createRecipe _ => (1, some sequences.recipes)
  | .updateRecipe _ _ => (1, none)
  | _ => (0, none)

/-- SQLite fails before it has checked the constraint. -/
def Interrupted (environment : List StepOutcome) (sequences : Sequences) (op : ServiceOperation) :
    Prop :=
  Db.Interrupted environment (op.uniquenessStep sequences).1 (op.uniquenessStep sequences).2

end ServiceOperation

def errorCode {α : Type} : Expected α → Option ErrorCode
  | .ok _ => none
  | .error error => some error.code

/-- The result of a write has the right code, and it is `Storage` only when SQLite fails. -/
structure Classified (m : DBManager) (op : ServiceOperation) (environment : List StepOutcome) :
    Prop where
  validation : errorCode (op.call environment m).1 = some .validation ↔ op.Invalid
  result : errorCode (op.call environment m).1 = op.verdict m.db.tables ∨
    (errorCode (op.call environment m).1 = some .storage ∧
      SqliteFails environment (op.call environment m).2)

/-- The call does not fail: nothing is thrown, and the service reports no storage error. -/
def Call.Succeeds (m : DBManager) : Call → Prop
  | .operation environment op => ∃ r, (runOn op.run (m.withEnvironment environment)).1 = .ok r
  | .service environment op => errorCode (op.call environment m).1 ≠ some .storage

/-! ## Runs without failures -/

section

variable {α β : Type}

abbrev Sound (m : DBManager) : Prop := Unfailed m ∧ Rests Store.Valid m

/-- A service call that ends in no storage error leaves a sound manager sound. -/
abbrev StaysSound (body : DbM (Expected α)) : Prop :=
  Triple Sound body (fun result m => errorCode result ≠ some .storage → Sound m) (fun _ _ => False)

theorem guarded_staysSound {body : DbM (Expected α)}
    (h : Triple Sound body (fun _ => Sound) (fun _ _ => True)) : StaysSound (guarded body) := by
  refine Triple.tryCatch (h.conseq (fun _ h => h) (fun _ _ h _ => h) (fun _ _ h => h)) fun _ => ?_
  exact Triple.pure fun _ _ hne => absurd rfl hne

theorem operation_sound (op : Operation) {body : DbM α} {f : α → Returned}
    (hop : op.run = f <$> body) : Triple Sound body (fun _ => Sound) (fun _ _ => True) := by
  apply Triple.of_map (f := f)
  rw [← hop]
  exact op.run_unfailed

theorem requireFound_staysSound {body : DbM Bool} {message : String}
    (h : Triple Sound body (fun _ => Sound) (fun _ _ => True)) :
    StaysSound (do return RecipeService.requireFound message (← guarded (.ok <$> body))) := by
  refine Triple.bind (guarded_staysSound (Triple.map h)) fun result =>
    Triple.pure fun m hm hne => ?_
  apply hm
  intro hstorage
  apply hne
  rcases result with error | _
  · exact hstorage
  · cases hstorage

theorem createThenGet_staysSound {create : DbM β} {get : β → DbM (Option α)} {message : String}
    (hcreate : Triple Sound create (fun _ => Sound) (fun _ _ => True))
    (hget : ∀ id, Triple Sound (get id) (fun _ => Sound) (fun _ _ => True)) :
    StaysSound (createThenGet create get message) := by
  refine guarded_staysSound (hcreate.bind fun id => (hget id).bind fun found => ?_)
  cases found with
  | none => exact Triple.pure fun _ hm => hm
  | some a => exact Triple.pure fun _ hm => hm

theorem invalid_staysSound {error : Error} :
    StaysSound (return .error error : DbM (Expected α)) := Triple.pure fun _ hm _ => hm

theorem ServiceOperation.run_staysSound (op : ServiceOperation) : StaysSound op.run := by
  have hproduct : ∀ productId, Triple Sound (DBManager.getProduct productId) (fun _ => Sound)
      (fun _ _ => True) := fun productId => operation_sound (.getProduct productId) rfl
  have hrecipe : ∀ recipeId, Triple Sound (DBManager.getRecipe recipeId) (fun _ => Sound)
      (fun _ _ => True) := fun recipeId => operation_sound (.getRecipe recipeId) rfl
  cases op with
  | createProduct product =>
      show StaysSound (RecipeService.createProduct _ product)
      unfold RecipeService.createProduct
      split
      · exact invalid_staysSound
      · rw [createProduct_eq_createThenGet]
        exact createThenGet_staysSound (operation_sound (.createProduct product) rfl) hproduct
  | getProduct productId => exact guarded_staysSound (Triple.map (hproduct productId))
  | getProducts => exact guarded_staysSound (Triple.map (operation_sound .getAllProducts rfl))
  | updateProduct productId product =>
      show StaysSound (RecipeService.updateProduct _ productId product)
      unfold RecipeService.updateProduct
      split
      · exact invalid_staysSound
      · exact requireFound_staysSound (operation_sound (.updateProduct productId product) rfl)
  | deleteProduct productId =>
      exact requireFound_staysSound (operation_sound (.deleteProduct productId) rfl)
  | createRecipe recipe =>
      show StaysSound (RecipeService.createRecipe _ recipe)
      unfold RecipeService.createRecipe
      split
      · exact invalid_staysSound
      · rw [createRecipe_eq_createThenGet]
        exact createThenGet_staysSound (operation_sound (.createRecipe recipe) rfl) hrecipe
  | getRecipe recipeId => exact guarded_staysSound (Triple.map (hrecipe recipeId))
  | getRecipes => exact guarded_staysSound (Triple.map (operation_sound .getAllRecipes rfl))
  | getCookableRecipes =>
      exact guarded_staysSound (Triple.map (operation_sound .getCookableRecipes rfl))
  | updateRecipe recipeId recipe =>
      show StaysSound (RecipeService.updateRecipe _ recipeId recipe)
      unfold RecipeService.updateRecipe
      split
      · exact invalid_staysSound
      · exact requireFound_staysSound (operation_sound (.updateRecipe recipeId recipe) rfl)
  | deleteRecipe recipeId =>
      exact requireFound_staysSound (operation_sound (.deleteRecipe recipeId) rfl)

/-- **While no call fails, no statement is left failed.** -/
theorem sound_of_reachable {m : DBManager} (h : (managerRuns.restrict Call.Succeeds).Reachable m) :
    Sound m := by
  apply h.invariant
  · intro m hm
    obtain rfl : m = {} := hm
    exact ⟨fun _ => rfl, Store.valid_empty, rfl⟩
  · intro m call m' hm hstep
    obtain ⟨hsucceeds, rfl⟩ := hstep
    cases call with
    | operation environment op =>
        obtain ⟨r, hr⟩ := hsucceeds
        exact op.run_unfailed.of_ok (s := m.withEnvironment environment) hm (Prod.ext hr rfl)
    | service environment op =>
        show Sound (runOn op.run (m.withEnvironment environment)).2
        rw [op.runOn_eq_call]
        exact ServiceOperation.call_triple (m := m) op.run_staysSound hm hsucceeds

end

/-! ## The code of a write -/

/-- The result has the code of the verdict, or it is `Storage` for a reason. -/
def Settled (environment : List StepOutcome) (n : Nat) (last : Option Int)
    (verdict : Option ErrorCode) (code : Option ErrorCode) (m : DBManager) : Prop :=
  (code = verdict ∧ verdict ≠ some .conflict) ∨
    (code = some .storage ∧ Explained environment n last (verdict = some .conflict) m)

section

variable {environment : List StepOutcome} {n : Nat} {last : Option Int}
  {verdict : Option ErrorCode} {m m' : DBManager}

/-- An update or delete: an exception, or whether the id was found. -/
theorem requireFound_settled {message : String} {body : DbM Bool} {result : Expected Unit}
    (herror : ∀ e m₁, runOn body m = (.error e, m₁) →
      Explained environment n last (verdict = some .conflict) m₁)
    (hok : ∀ found m₁, runOn body m = (.ok found, m₁) →
      verdict = if found then none else some .notFound)
    (h : runOn (do return RecipeService.requireFound message (← guarded (.ok <$> body))) m =
      (.ok result, m')) : Settled environment n last verdict (errorCode result) m' := by
  rcases hbody : runOn body m with ⟨e | found, m₁⟩
  · have hguarded : runOn (guarded (.ok <$> body)) m = (.ok (.error (storageError e)), m₁) := by
      rw [runOn_guarded, map_eq_pure_bind, runOn_bind_error hbody]
    rw [runOn_bind_ok hguarded] at h
    cases h
    exact Or.inr ⟨rfl, herror e _ hbody⟩
  · rw [runOn_bind_ok (runOn_guarded_map hbody)] at h
    cases h
    have hverdict := hok found _ hbody
    cases found with
    | false => exact Or.inl (hverdict ▸ ⟨rfl, by decide⟩)
    | true => exact Or.inl (hverdict ▸ ⟨rfl, by decide⟩)

/-- A create: an exception of the write, or one of the read behind it. -/
theorem createThenGet_settled {α β : Type} {create : DbM β} {get : β → DbM (Option α)}
    {message : String} {result : Expected α}
    (herror : ∀ e m₁, runOn create m = (.error e, m₁) →
      Explained environment n last (verdict = some .conflict) m₁)
    (hok : ∀ id m₁, runOn create m = (.ok id, m₁) → verdict = none ∧
      (∀ e m₂, runOn (get id) m₁ = (.error e, m₂) → ∃ k, FailedAt environment k m₂) ∧
      ∀ found m₂, runOn (get id) m₁ = (.ok found, m₂) → ∃ a, found = some a)
    (h : runOn (createThenGet create get message) m = (.ok result, m')) :
    Settled environment n last verdict (errorCode result) m' := by
  rw [createThenGet, runOn_guarded] at h
  rcases hcreate : runOn create m with ⟨e | id, m₁⟩
  · rw [runOn_bind_error hcreate] at h
    cases h
    exact Or.inr ⟨rfl, herror e _ hcreate⟩
  · obtain ⟨rfl, hthrows, hfinds⟩ := hok id m₁ hcreate
    rw [runOn_bind_ok hcreate] at h
    rcases hget : runOn (get id) m₁ with ⟨e | found, m₂⟩
    · rw [runOn_bind_error hget] at h
      cases h
      exact Or.inr ⟨rfl, FailedAt.explained_late (hthrows e _ hget) (by decide)⟩
    · obtain ⟨a, rfl⟩ := hfinds found m₂ hget
      rw [runOn_bind_ok hget] at h
      cases h
      exact Or.inl ⟨rfl, by decide⟩

end

section

variable {environment : List StepOutcome} {m : DBManager} {op : ServiceOperation}

theorem verdict_of_valid {tables : Tables} (hvalid : ¬ op.Invalid) : op.verdict tables =
    if op.Missing tables then some .notFound
    else if op.Clashes tables then some .conflict
    else none := if_neg hvalid

theorem verdict_eq_conflict {tables : Tables} (hvalid : ¬ op.Invalid) :
    op.verdict tables = some .conflict ↔ ¬ op.Missing tables ∧ op.Clashes tables := by
  rw [verdict_of_valid hvalid]
  by_cases hmissing : op.Missing tables
  · simp [hmissing]
  · by_cases hclashes : op.Clashes tables
    · simp [hmissing, hclashes]
    · simp [hmissing, hclashes]

theorem unfit_iff {product : Product} :
    ¬ Unfit product ↔ RecipeService.validateProduct product = .ok () := by
  rw [RecipeService.validateProduct_eq_ok, Unfit, not_or, not_lt]

theorem invalid_recipe_iff {recipe : Recipe} :
    ¬ (recipe.name = "" ∨ ∃ i ∈ recipe.ingredients, Unfit i) ↔
      RecipeService.validateRecipe recipe = .ok () := by
  rw [RecipeService.validateRecipe_eq_ok, not_or]
  apply and_congr_right
  intro _
  constructor
  · intro hnone i hi
    have hfit : ¬ Unfit i := fun hunfit => hnone ⟨i, hi, hunfit⟩
    rwa [unfit_iff, RecipeService.validateProduct_eq_ok] at hfit
  · intro hall hunfit
    obtain ⟨i, hi, hunfit⟩ := hunfit
    exact unfit_iff.mpr (RecipeService.validateProduct_eq_ok.mpr (hall i hi)) hunfit

/-- An update or delete that throws for the reasons of its constraint, and that otherwise returns
whether its id is stored. -/
theorem change_settled {message : String} {body : DbM Bool} {result : Expected Unit} {n : Nat}
    {last : Option Int} {stored clash : Prop} {tables : Tables} {P P' : DBManager → Prop}
    {R : DBManager → Prop} (hvalid : ¬ op.Invalid) (hmissing : op.Missing tables ↔ ¬ stored)
    (hclashes : op.Clashes tables ↔ clash)
    (hexplained : Triple P body (fun _ m => R m ∧ ¬ (stored ∧ clash))
      (fun _ => Explained environment n last (stored ∧ clash)))
    (hexact : Triple P' body (fun found _ => found = true ↔ stored) (fun _ _ => True))
    (hP : P m) (hP' : P' m) {m' : DBManager}
    (h : runOn (do return RecipeService.requireFound message (← guarded (.ok <$> body))) m =
      (.ok result, m')) :
    Settled environment n last (op.verdict tables) (errorCode result) m' := by
  have hconflict : op.verdict tables = some .conflict ↔ stored ∧ clash := by
    rw [verdict_eq_conflict hvalid, hmissing, hclashes, not_not]
  refine requireFound_settled (fun e m₁ hbody => ?_) (fun found m₁ hbody => ?_) h
  · exact (hexplained.of_error hP hbody).congr hconflict
  · have hfound := hexact.of_ok hP' hbody
    have hfree := (hexplained.of_ok hP hbody).2
    rw [verdict_of_valid hvalid]
    cases found with
    | false => exact if_pos (hmissing.mpr (by simpa using hfound))
    | true =>
        have hstored : stored := hfound.mp rfl
        rw [if_neg (mt hmissing.mp (not_not.mpr hstored)),
          if_neg fun hclash => hfree ⟨hstored, hclashes.mp hclash⟩]
        rfl

/-- A create whose row is there when it is read back. -/
theorem create_settled {α β : Type} {create : DbM β} {get : β → DbM (Option α)} {message : String}
    {result : Expected α} {n : Nat} {last : Option Int} {tables : Tables} {P : DBManager → Prop}
    (hvalid : ¬ op.Invalid) (hmissing : ¬ op.Missing tables)
    (hexplained : Triple P create (fun _ m => Going environment m ∧ ¬ op.Clashes tables)
      (fun _ => Explained environment n last (op.Clashes tables)))
    (hget : ∀ id, Steady environment (fun _ => True) (get id) (fun _ _ => True))
    (hfinds : ∀ id m₁ found m₂, runOn create m = (.ok id, m₁) →
      runOn (get id) m₁ = (.ok found, m₂) → ∃ a, found = some a)
    (hP : P m) {m' : DBManager}
    (h : runOn (createThenGet create get message) m = (.ok result, m')) :
    Settled environment n last (op.verdict tables) (errorCode result) m' := by
  refine createThenGet_settled (fun e m₁ hcreate => ?_) (fun id m₁ hcreate => ?_) h
  · refine (hexplained.of_error hP hcreate).congr ?_
    rw [verdict_eq_conflict hvalid]
    exact and_iff_right hmissing
  · obtain ⟨hgoing, hfree⟩ := hexplained.of_ok hP hcreate
    refine ⟨?_, fun e m₂ h => (hget id).of_error ⟨hgoing, trivial⟩ h, fun found m₂ h =>
      hfinds id m₁ found m₂ hcreate h⟩
    rw [verdict_of_valid hvalid, if_neg hmissing, if_neg hfree]

/-- **The code of a valid write** on a sound manager. -/
theorem call_settled (hsound : Sound m) (hwrite : op.onlyReads = false) (hvalid : ¬ op.Invalid) :
    Settled environment (op.uniquenessStep m.db.sequences).1 (op.uniquenessStep m.db.sequences).2
      (op.verdict m.db.tables) (errorCode (op.call environment m).1)
      (op.call environment m).2 := by
  have hrun : runOn op.run (m.withEnvironment environment) = _ := op.runOn_eq_call
  have hstart : Starts environment 0 m.db.tables m.db.sequences (m.withEnvironment environment) :=
    ⟨ready_start hsound.1, rfl, rfl⟩
  have hpre : Store.Valid m.db.tables m.db.sequences ∧ m.db.tables = m.db.tables ∧
      m.db.sequences = m.db.sequences := ⟨hsound.2.1, rfl, rfl⟩
  -- a delete throws only when SQLite fails, as if its constraint could not be broken
  have hdelete : ∀ {body : DbM Bool} {stored : Prop},
      Steady environment (fun _ => True) body (fun _ _ => True) →
      Triple (Starts environment 0 m.db.tables m.db.sequences) body
        (fun _ m => Going environment m ∧ ¬ (stored ∧ False))
        (fun _ => Explained environment 0 none (stored ∧ False)) := fun hsteady =>
    hsteady.conseq (fun _ h => ⟨⟨0, h.1⟩, trivial⟩) (fun _ _ h => ⟨h.1, fun h => h.2⟩)
      (fun _ _ h => FailedAt.explained_late h fun h => h.2)
  cases op with
  | createProduct product =>
      have hvalidated := unfit_iff.mp hvalid
      have hamount := (RecipeService.validateProduct_eq_ok.mp hvalidated).2
      rw [ServiceOperation.run, RecipeService.createProduct, hvalidated] at hrun
      change runOn (sqliteRecipeRepository.createProduct product) _ = _ at hrun
      rw [createProduct_eq_createThenGet] at hrun
      refine create_settled hvalid id (createProduct_explained hamount)
        (fun _ => getProduct_steady) ?_ hstart hrun
      intro productId m₁ found m₂ hcreate hget
      have hstored := (createProduct_stored hcreate).1
      have hrow : HasProduct productId m₁.db.tables :=
        ⟨productRow productId product, by simp [hstored], rfl⟩
      rw [(getProduct_exact hget).1]
      exact findProduct_ne_none hrow
  | updateProduct productId product =>
      have hvalidated := unfit_iff.mp hvalid
      have hamount := (RecipeService.validateProduct_eq_ok.mp hvalidated).2
      rw [ServiceOperation.run, RecipeService.updateProduct, hvalidated] at hrun
      exact change_settled hvalid Iff.rfl Iff.rfl (updateProduct_explained hamount)
        (updateProduct_exact product) hstart hpre hrun
  | deleteProduct productId =>
      exact change_settled hvalid Iff.rfl Iff.rfl (hdelete deleteProduct_steady)
        deleteProduct_exact hstart hpre hrun
  | createRecipe recipe =>
      have hvalidated := invalid_recipe_iff.mp hvalid
      have hamounts := fun i hi => ((RecipeService.validateRecipe_eq_ok.mp hvalidated).2 i hi).2
      rw [ServiceOperation.run, RecipeService.createRecipe, hvalidated] at hrun
      change runOn (sqliteRecipeRepository.createRecipe recipe) _ = _ at hrun
      rw [createRecipe_eq_createThenGet] at hrun
      refine create_settled hvalid id (createRecipe_explained hamounts)
        (fun _ => getRecipe_steady) ?_ hstart hrun
      intro recipeId m₁ found m₂ hcreate hget
      have hv₁ : Store.Valid m₁.db.tables m₁.db.sequences :=
        ((createRecipe_keeps (rests_kept (Store.closed_valid {}))
          (Recipe.admitted_all recipe)).of_ok (s := m.withEnvironment environment) hsound.2
            hcreate).1
      have hfound : found = findRecipe (storedRecipes m₁.db.tables) recipeId :=
        ((getRecipe_readsAs recipeId).exact _ _ _ hget).trans (selectRecipeById_fetch hv₁ recipeId)
      rw [hfound]
      exact findRecipe_ne_none hv₁ (createRecipe_written.of_ok trivial hcreate).hasRecipe
  | updateRecipe recipeId recipe =>
      have hvalidated := invalid_recipe_iff.mp hvalid
      have hamounts := fun i hi => ((RecipeService.validateRecipe_eq_ok.mp hvalidated).2 i hi).2
      rw [ServiceOperation.run, RecipeService.updateRecipe, hvalidated] at hrun
      exact change_settled hvalid Iff.rfl Iff.rfl (updateRecipe_explained hamounts)
        (updateRecipe_exact recipe) hstart hpre hrun
  | deleteRecipe recipeId =>
      exact change_settled hvalid Iff.rfl Iff.rfl (hdelete deleteRecipe_steady)
        deleteRecipe_exact hstart hpre hrun
  | _ => cases hwrite

/-- An invalid argument is refused before anything is stored. -/
theorem call_invalid (hinvalid : op.Invalid) :
    errorCode (op.call environment m).1 = some .validation := by
  have hrefused : ∀ error, op.run = pure (.error error) → error.code = .validation →
      errorCode (op.call environment m).1 = some .validation := by
    intro error hop hcode
    have hrun : runOn op.run (m.withEnvironment environment) =
        (.ok (.error error), m.withEnvironment environment) := by rw [hop, runOn_pure]
    rw [ServiceOperation.call_of_runOn hrun]
    exact congrArg some hcode
  have hproduct : ∀ {product : Product}, Unfit product →
      ∃ error, RecipeService.validateProduct product = .error error := by
    intro product hunfit
    cases hv : RecipeService.validateProduct product with
    | error error => exact ⟨error, rfl⟩
    | ok => exact absurd hunfit (unfit_iff.mpr hv)
  have hrecipe : ∀ {recipe : Recipe}, (recipe.name = "" ∨ ∃ i ∈ recipe.ingredients, Unfit i) →
      ∃ error, RecipeService.validateRecipe recipe = .error error := by
    intro recipe hunfit
    cases hv : RecipeService.validateRecipe recipe with
    | error error => exact ⟨error, rfl⟩
    | ok => exact absurd hunfit (invalid_recipe_iff.mpr hv)
  cases op with
  | createProduct product =>
      obtain ⟨error, herror⟩ := hproduct hinvalid
      apply hrefused error _ (RecipeService.validateProduct_error herror)
      rw [ServiceOperation.run, RecipeService.createProduct, herror]
  | updateProduct productId product =>
      obtain ⟨error, herror⟩ := hproduct hinvalid
      apply hrefused error _ (RecipeService.validateProduct_error herror)
      rw [ServiceOperation.run, RecipeService.updateProduct, herror]
  | createRecipe recipe =>
      obtain ⟨error, herror⟩ := hrecipe hinvalid
      apply hrefused error _ (RecipeService.validateRecipe_error herror)
      rw [ServiceOperation.run, RecipeService.createRecipe, herror]
  | updateRecipe recipeId recipe =>
      obtain ⟨error, herror⟩ := hrecipe hinvalid
      apply hrefused error _ (RecipeService.validateRecipe_error herror)
      rw [ServiceOperation.run, RecipeService.updateRecipe, herror]
  | _ => exact hinvalid.elim

theorem verdict_eq_validation {tables : Tables} :
    op.verdict tables = some .validation ↔ op.Invalid := by
  unfold ServiceOperation.verdict
  by_cases hinvalid : op.Invalid
  · simp [hinvalid]
  · by_cases hmissing : op.Missing tables
    · simp [hinvalid, hmissing]
    · by_cases hclashes : op.Clashes tables
      · simp [hinvalid, hmissing, hclashes]
      · simp [hinvalid, hmissing, hclashes]

/-- **A write's code is the verdict's**, up to failures of SQLite's, exactly when no uniqueness
constraint decides or SQLite fails before it is checked. -/
theorem classified_iff (h : (managerRuns.restrict Call.Succeeds).Reachable m)
    (hwrite : op.onlyReads = false) :
    Classified m op environment ↔
      (op.verdict m.db.tables = some .conflict → op.Interrupted environment m.db.sequences) := by
  by_cases hinvalid : op.Invalid
  · have hcode : errorCode (op.call environment m).1 = some .validation := call_invalid hinvalid
    have hverdict : op.verdict m.db.tables = some .validation := if_pos hinvalid
    refine ⟨fun _ hconflict => ?_, fun _ => ⟨iff_of_true hcode hinvalid, Or.inl ?_⟩⟩
    · rw [hverdict] at hconflict
      cases hconflict
    · rw [hcode, hverdict]
  · have hsettled : Settled environment _ _ _ _ (op.call environment m).2 :=
      call_settled (sound_of_reachable h) hwrite hinvalid
    rcases hsettled with ⟨hcode, hne⟩ | ⟨hcode, hexplained⟩
    · refine ⟨fun _ hconflict => absurd hconflict hne, fun _ => ⟨?_, Or.inl hcode⟩⟩
      rw [hcode, verdict_eq_validation]
    · constructor
      · intro hclassified hconflict
        rcases hclassified.result with hverdict | ⟨-, hfails⟩
        · -- the code is `Storage`, and no verdict is
          rw [hcode, hconflict] at hverdict
          cases hverdict
        · exact (hexplained.interrupted hconflict).mp hfails
      · intro hinterrupted
        refine ⟨iff_of_false (by rw [hcode]; decide) hinvalid, Or.inr ⟨hcode, ?_⟩⟩
        by_contra hno
        have hconflict := hexplained.reason hno
        exact hno ((hexplained.interrupted hconflict).mpr (hinterrupted hconflict))

end

def butter : Product := { name := "butter", amount := 250, dimension := .gramm }

/-- The butter was created. -/
def butterCalls : List Call := [.service [] (.createProduct butter)]

theorem reachable_butter :
    (managerRuns.restrict Call.Succeeds).Reachable (afterCalls butterCalls) := by
  have hsucceeds : errorCode ((ServiceOperation.createProduct butter).call [] {}).1 ≠
      some .storage := by decide +kernel
  exact .step (l := .service [] (.createProduct butter)) (.init rfl) ⟨hsucceeds, rfl⟩

/-- Creating it again should be a conflict; SQLite fails in nothing but the uniqueness constraint,
and the result is `Storage` all the same. -/
theorem second_butter_not_classified :
    (managerRuns.restrict Call.Succeeds).Reachable (afterCalls butterCalls) ∧
      (ServiceOperation.createProduct butter).verdict (afterCalls butterCalls).db.tables =
        some .conflict ∧
      errorCode ((ServiceOperation.createProduct butter).call [] (afterCalls butterCalls)).1 =
        some .storage ∧
      ¬ Classified (afterCalls butterCalls) (.createProduct butter) [] := by
  have hverdict : (ServiceOperation.createProduct butter).verdict
      (afterCalls butterCalls).db.tables = some .conflict := by decide +kernel
  have hcode : errorCode ((ServiceOperation.createProduct butter).call []
      (afterCalls butterCalls)).1 = some .storage := by decide +kernel
  refine ⟨reachable_butter, hverdict, hcode, fun hclassified => ?_⟩
  rcases hclassified.result with hsame | ⟨-, ⟨n, exception, hat, -⟩ | ⟨u, exception, hu, hother⟩⟩
  · rw [hcode, hverdict] at hsame
    cases hsame
  · cases hat
  · have hfailures : ((ServiceOperation.createProduct butter).call []
        (afterCalls butterCalls)).2.failureOf u = if u = .write .createProduct then
          some (PreparedStatements.uniqueFailed "products.name, products.dimension") else none := by
      cases u with
      | write w => cases w <;> decide +kernel
      | read r => cases r <;> decide +kernel
    rw [hfailures] at hu
    split at hu
    · cases hu
      exact hother rfl
    · cases hu

/-- Renaming it to a new name is no conflict. -/
theorem update_butter_classified : Classified (afterCalls butterCalls)
    (.updateProduct 1 { butter with name := "ghee" }) [] :=
  (classified_iff reachable_butter rfl).mpr fun hconflict => absurd hconflict (by decide +kernel)

end RecipesCore.App
