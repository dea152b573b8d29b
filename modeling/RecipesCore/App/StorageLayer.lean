import RecipesCore.App.DatabaseExecutor
import RecipesCore.Db.Texts

/-!
# The service over any database layer

A `StorageLayer` is a `DBManager` of which only the interface is known: what its calls do to its
state, and what they throw, `std::exception`s or not. Repository, service and worker are the ones of
the program; `sqliteLayer` is the layer the program has.

Two layers that do the same but for what they throw are told apart by the text of storage errors
only.
-/

namespace RecipesCore.App

open RecipesCore.Db
open RecipesCore.Logic RecipesCore.Logic.Program
open RecipesCore.Types

/-- A service call over some repository. -/
def ServiceOperation.over {m : Type → Type} [Monad m] (repository : RecipeRepository m) :
    (operation : ServiceOperation) → m (Expected operation.Result)
  | .createProduct product => RecipeService.createProduct repository product
  | .getProduct productId => RecipeService.getProduct repository productId
  | .getProducts => RecipeService.getProducts repository
  | .updateProduct productId product => RecipeService.updateProduct repository productId product
  | .deleteProduct productId => RecipeService.deleteProduct repository productId
  | .createRecipe recipe => RecipeService.createRecipe repository recipe
  | .getRecipe recipeId => RecipeService.getRecipe repository recipeId
  | .getRecipes => RecipeService.getRecipes repository
  | .getCookableRecipes => RecipeService.getCookableRecipes repository
  | .updateRecipe recipeId recipe => RecipeService.updateRecipe repository recipeId recipe
  | .deleteRecipe recipeId => RecipeService.deleteRecipe repository recipeId

structure StorageLayer where
  State : Type
  Exception : Type
  /-- The text of a `std::exception`; `none` for what is none. -/
  what : Exception → Option String
  manager : (operation : Operation) → Prog State Exception operation.Value

namespace StorageLayer

section

variable (layer : StorageLayer)

abbrev M := Prog layer.State layer.Exception

/-- `try { … } catch (const std::exception& exception) { return StorageError(exception); }` -/
def guarded {α : Type} (body : layer.M (Expected α)) : layer.M (Expected α) :=
  tryCatch body fun exception =>
    match layer.what exception with
    | some what => return .error ⟨.storage, what⟩
    | none => throw exception

/-- `SqliteRecipeRepository` over the layer. -/
def repository : RecipeRepository layer.M where
  createProduct product := layer.guarded do
    let productId ← layer.manager (.createProduct product)
    match ← layer.manager (.getProduct productId) with
    | none => return .error ⟨.storage, "Created product was not found"⟩
    | some createdProduct => return .ok createdProduct
  getProduct productId := layer.guarded (.ok <$> layer.manager (.getProduct productId))
  getProducts := layer.guarded (.ok <$> layer.manager .getAllProducts)
  updateProduct productId product :=
    layer.guarded (.ok <$> layer.manager (.updateProduct productId product))
  deleteProduct productId := layer.guarded (.ok <$> layer.manager (.deleteProduct productId))
  createRecipe recipe := layer.guarded do
    let recipeId ← layer.manager (.createRecipe recipe)
    match ← layer.manager (.getRecipe recipeId) with
    | none => return .error ⟨.storage, "Created recipe was not found"⟩
    | some createdRecipe => return .ok createdRecipe
  getRecipe recipeId := layer.guarded (.ok <$> layer.manager (.getRecipe recipeId))
  getRecipes := layer.guarded (.ok <$> layer.manager .getAllRecipes)
  getCookableRecipes := layer.guarded (.ok <$> layer.manager .getCookableRecipes)
  updateRecipe recipeId recipe :=
    layer.guarded (.ok <$> layer.manager (.updateRecipe recipeId recipe))
  deleteRecipe recipeId := layer.guarded (.ok <$> layer.manager (.deleteRecipe recipeId))

/-- How an operation ends for the worker. -/
def outcome {α : Type} : Except layer.Exception (Expected α) → Outcome α
  | .ok result => .returned result
  | .error exception =>
      match layer.what exception with
      | some what => .exception what
      | none => .unknownException

/-- What a submission completes with, and the state it leaves. -/
def call (operation : ServiceOperation) (s : layer.State) :
    Expected operation.Result × layer.State :=
  let (ended, s') := runOn (operation.over layer.repository) s
  ((layer.outcome ended).completion, s')

end

end StorageLayer

/-! ## The program's layer -/

def sqliteLayer : StorageLayer where
  State := DBManager
  Exception := DbException
  what exception := some exception.what
  manager := Operation.perform

theorem sqliteLayer_createProduct (product : Product) :
    sqliteLayer.repository.createProduct product =
      sqliteRecipeRepository.createProduct product := by
  refine congrArg guarded (congrArg (DBManager.createProduct product >>= ·) (funext fun id => ?_))
  refine congrArg (DBManager.getProduct id >>= ·) (funext fun createdProduct => ?_)
  cases createdProduct <;> rfl

theorem sqliteLayer_createRecipe (recipe : Recipe) :
    sqliteLayer.repository.createRecipe recipe = sqliteRecipeRepository.createRecipe recipe := by
  refine congrArg guarded (congrArg (DBManager.createRecipe recipe >>= ·) (funext fun id => ?_))
  refine congrArg (DBManager.getRecipe id >>= ·) (funext fun createdRecipe => ?_)
  cases createdRecipe <;> rfl

theorem sqliteLayer_repository : sqliteLayer.repository = sqliteRecipeRepository := by
  have hrepository : sqliteLayer.repository = ({ sqliteRecipeRepository with
      createProduct := sqliteLayer.repository.createProduct
      createRecipe := sqliteLayer.repository.createRecipe } : RecipeRepository DbM) := rfl
  rw [hrepository, funext sqliteLayer_createProduct, funext sqliteLayer_createRecipe]

theorem over_sqliteRecipeRepository (operation : ServiceOperation) :
    operation.over sqliteRecipeRepository = operation.run := by
  cases operation <;> rfl

/-- The program's layer does not see the texts of failures. -/
theorem perform_similar (operation : Operation) :
    Similar SameButTexts Eq (sqliteLayer.manager operation) (sqliteLayer.manager operation) :=
  perform_blind operation

/-- The worker's calls are those of the layer. -/
theorem sqliteLayer_call (operation : ServiceOperation) (environment : List StepOutcome)
    (m : DBManager) :
    sqliteLayer.call operation (m.withEnvironment environment) = operation.call environment m := by
  have hover : operation.over sqliteLayer.repository = operation.run := by
    rw [sqliteLayer_repository]
    exact over_sqliteRecipeRepository operation
  have hrun : runOn (operation.over sqliteLayer.repository) (m.withEnvironment environment) =
      (.ok (operation.call environment m).1, (operation.call environment m).2) := by
    rw [hover]
    exact ServiceOperation.runOn_eq_call
  simp only [StorageLayer.call, hrun, StorageLayer.outcome, Outcome.completion]
  exact Prod.mk.eta

/-! ## Two layers -/

/-- The same result, unless both are storage errors. -/
def SameUnlessStorage {α : Type} : Expected α → Expected α → Prop
  | .ok a, .ok b => a = b
  | .error error, .error error' =>
      error = error' ∨ error.code = .storage ∧ error'.code = .storage
  | _, _ => False

theorem SameUnlessStorage.refl {α : Type} (result : Expected α) :
    SameUnlessStorage result result := by
  cases result with
  | error error => exact Or.inl rfl
  | ok a => exact rfl

namespace StorageLayer

/-- The layers do the same to states in `R`, but for what they throw. -/
def Similar (layer layer' : StorageLayer) (R : layer.State → layer'.State → Prop) : Prop :=
  ∀ operation, Logic.Similar R Eq (layer.manager operation) (layer'.manager operation)

variable {layer layer' : StorageLayer} {R : layer.State → layer'.State → Prop}

/-- The parts of a service call end alike for the worker. -/
def Hidden {α : Type} (R : layer.State → layer'.State → Prop) (m : layer.M (Expected α))
    (k : layer'.M (Expected α)) : Prop :=
  ∀ s t, R s t →
    SameUnlessStorage (layer.outcome (runOn m s).1).completion
      (layer'.outcome (runOn k t).1).completion ∧
    R (runOn m s).2 (runOn k t).2

theorem hidden_pure {α : Type} (result : Expected α) :
    Hidden R (pure result) (pure result) :=
  fun _ _ hR => ⟨.refl result, hR⟩

/-- An exception completes with a storage error. -/
theorem outcome_error {α : Type} (exception : layer.Exception) :
    ∃ error : Error, (layer.outcome (.error exception : Except _ (Expected α))).completion =
      .error error ∧ error.code = .storage := by
  rw [outcome]
  split <;> exact ⟨_, rfl, rfl⟩

/-- So does an exception that the repository catches, or lets through. -/
theorem runOn_guarded_error {α : Type} {body : layer.M (Expected α)} {s s' : layer.State}
    {exception : layer.Exception} (h : runOn body s = (.error exception, s')) :
    ∃ error : Error,
      (layer.outcome (runOn (layer.guarded body) s).1).completion = .error error ∧
      error.code = .storage ∧ (runOn (layer.guarded body) s).2 = s' := by
  rw [guarded, runOn_tryCatch, h]
  cases hwhat : layer.what exception with
  | some what =>
      simp only [hwhat]
      exact ⟨_, rfl, rfl, rfl⟩
  | none =>
      simp only [hwhat]
      obtain ⟨error, hcompletion, hcode⟩ := outcome_error (α := α) exception
      exact ⟨error, hcompletion, hcode, rfl⟩

theorem hidden_guarded {α : Type} {body : layer.M (Expected α)} {body' : layer'.M (Expected α)}
    (h : Logic.Similar R Eq body body') :
    Hidden R (layer.guarded body) (layer'.guarded body') := by
  intro s t hR
  have hend := h s t hR
  rcases hbody : runOn body s with ⟨e | result, s'⟩ <;>
    rcases hbody' : runOn body' t with ⟨d | result', t'⟩ <;> rw [hbody, hbody'] at hend
  · obtain ⟨error, hcompletion, hcode, hstate⟩ := runOn_guarded_error hbody
    obtain ⟨error', hcompletion', hcode', hstate'⟩ := runOn_guarded_error hbody'
    rw [hcompletion, hcompletion', hstate, hstate']
    exact ⟨Or.inr ⟨hcode, hcode'⟩, hend⟩
  · exact hend.elim
  · exact hend.elim
  · obtain ⟨rfl, hR'⟩ := hend
    rw [guarded, guarded, runOn_tryCatch, runOn_tryCatch, hbody, hbody']
    exact ⟨.refl result, hR'⟩

/-- The last lines of an update or delete see what the worker would. -/
theorem runOn_requireFound (message : String) (body : layer.M (Expected Bool)) (s : layer.State) :
    (layer.outcome (runOn (do return RecipeService.requireFound message (← body)) s).1).completion =
        RecipeService.requireFound message (layer.outcome (runOn body s).1).completion ∧
      (runOn (do return RecipeService.requireFound message (← body)) s).2 = (runOn body s).2 := by
  rw [runOn_bind]
  rcases runOn body s with ⟨e | result, s'⟩
  · rw [outcome, outcome]
    cases layer.what e <;> exact ⟨rfl, rfl⟩
  · exact ⟨rfl, rfl⟩

theorem requireFound_same {message : String} {result result' : Expected Bool}
    (h : SameUnlessStorage result result') :
    SameUnlessStorage (RecipeService.requireFound message result)
      (RecipeService.requireFound message result') := by
  cases result with
  | error error =>
      cases result' with
      | error error' => exact h
      | ok found => exact h.elim
  | ok found =>
      cases result' with
      | error error' => exact h.elim
      | ok found' =>
          obtain rfl : found = found' := h
          exact .refl _

theorem hidden_requireFound {message : String} {body : layer.M (Expected Bool)}
    {body' : layer'.M (Expected Bool)} (h : Hidden R body body') :
    Hidden R (do return RecipeService.requireFound message (← body))
      (do return RecipeService.requireFound message (← body')) := by
  intro s t hR
  obtain ⟨hsame, hR'⟩ := h s t hR
  obtain ⟨hresult, hstate⟩ := runOn_requireFound message body s
  obtain ⟨hresult', hstate'⟩ := runOn_requireFound message body' t
  rw [hresult, hresult', hstate, hstate']
  exact ⟨requireFound_same hsame, hR'⟩

/-- A repository call that hands the manager's answer on. -/
theorem hidden_handOn (h : Similar layer layer' R) (operation : Operation) :
    Hidden R (layer.guarded (.ok <$> layer.manager operation))
      (layer'.guarded (.ok <$> layer'.manager operation)) :=
  hidden_guarded ((h operation).map fun _ _ heq => congrArg Except.ok heq)

/-- **A service call over one layer ends as over the other.** -/
theorem over_hidden (h : Similar layer layer' R) (operation : ServiceOperation) :
    Hidden R (operation.over layer.repository) (operation.over layer'.repository) := by
  cases operation with
  | createProduct product =>
      rw [ServiceOperation.over, ServiceOperation.over, RecipeService.createProduct,
        RecipeService.createProduct]
      split
      · exact hidden_pure _
      · refine hidden_guarded ((h (.createProduct product)).bind ?_)
        rintro productId _ rfl
        refine (h (.getProduct productId)).bind ?_
        rintro created _ rfl
        cases created <;> exact .pure rfl
  | getProduct productId => exact hidden_handOn h (.getProduct productId)
  | getProducts => exact hidden_handOn h .getAllProducts
  | updateProduct productId product =>
      rw [ServiceOperation.over, ServiceOperation.over, RecipeService.updateProduct,
        RecipeService.updateProduct]
      split
      · exact hidden_pure _
      · exact hidden_requireFound (hidden_handOn h (.updateProduct productId product))
  | deleteProduct productId => exact hidden_requireFound (hidden_handOn h (.deleteProduct productId))
  | createRecipe recipe =>
      rw [ServiceOperation.over, ServiceOperation.over, RecipeService.createRecipe,
        RecipeService.createRecipe]
      split
      · exact hidden_pure _
      · refine hidden_guarded ((h (.createRecipe recipe)).bind ?_)
        rintro recipeId _ rfl
        refine (h (.getRecipe recipeId)).bind ?_
        rintro created _ rfl
        cases created <;> exact .pure rfl
  | getRecipe recipeId => exact hidden_handOn h (.getRecipe recipeId)
  | getRecipes => exact hidden_handOn h .getAllRecipes
  | getCookableRecipes => exact hidden_handOn h .getCookableRecipes
  | updateRecipe recipeId recipe =>
      rw [ServiceOperation.over, ServiceOperation.over, RecipeService.updateRecipe,
        RecipeService.updateRecipe]
      split
      · exact hidden_pure _
      · exact hidden_requireFound (hidden_handOn h (.updateRecipe recipeId recipe))
  | deleteRecipe recipeId => exact hidden_requireFound (hidden_handOn h (.deleteRecipe recipeId))

theorem call_same (h : Similar layer layer' R) (operation : ServiceOperation) {s : layer.State}
    {t : layer'.State} (hR : R s t) :
    SameUnlessStorage (layer.call operation s).1 (layer'.call operation t).1 ∧
      R (layer.call operation s).2 (layer'.call operation t).2 :=
  over_hidden h operation s t hR

end StorageLayer

end RecipesCore.App
