import RecipesCore.App.SqliteRecipeRepository
import RecipesCore.Db.Invariants
import RecipesCore.Logic.Transition

/-!
# Runs of the manager and the service

A run starts from an empty database and makes calls, each a `DBManager` operation or a service call
with its own share of SQLite's behaviour. The service never throws, and it stores a name only after
checking that it is not empty. Nobody checks a dimension: any `uint8_t` that is passed in is stored.
-/

namespace RecipesCore.App

open RecipesCore.Db
open RecipesCore.Logic RecipesCore.Logic.Program
open RecipesCore.Types

/-! ## The service keeps invariants -/

/-- Admitted as far as the checks of the service let it pass: no empty names. -/
def checked (A : Admits) : Admits where
  recipe name := name ≠ "" → A.recipe name
  product product := product.name ≠ "" → A.product product

/-- What a use case may store is admitted. -/
def ServiceOperation.Admitted (A : Admits) : ServiceOperation → Prop
  | .createProduct product | .updateProduct _ product => (checked A).product product
  | .createRecipe recipe | .updateRecipe _ recipe => Recipe.Admitted (checked A) recipe
  | _ => True

/-- The products and ingredients among the arguments. -/
def ServiceOperation.products : ServiceOperation → List Product
  | .createProduct product | .updateProduct _ product => [product]
  | .createRecipe recipe | .updateRecipe _ recipe => recipe.ingredients
  | _ => []

/-- Where everything is admitted, so is every call of the service. -/
theorem ServiceOperation.admitted_all (op : ServiceOperation) : op.Admitted {} := by
  cases op <;> simp [Admitted, checked, Recipe.Admitted]

theorem ServiceOperation.admitted_of_products {P : Product → Prop} (op : ServiceOperation)
    (h : ∀ product ∈ op.products, P product) : op.Admitted { product := P } := by
  cases op with
  | createProduct product | updateProduct _ product =>
      exact fun _ => h product (List.mem_singleton.mpr rfl)
  | createRecipe recipe | updateRecipe _ recipe =>
      exact ⟨fun _ => trivial, fun i hi _ => h i hi⟩
  | _ => trivial

section

variable {A : Admits} {P inside outside : DBManager → Prop} {α β : Type}

/-- As `Keeps`, and nothing is thrown. -/
abbrev KeepsCaught (P : DBManager → Prop) (body : DbM α) : Prop :=
  Triple P body (fun _ => P) (fun _ _ => False)

/-- What `guarded` catches has kept the invariant before it was thrown. -/
theorem guarded_keeps {body : DbM (Expected α)} (h : Keeps P body) :
    KeepsCaught P (guarded body) :=
  Triple.tryCatch h fun _ => Triple.pure fun _ hm => hm

theorem guarded_map_keeps {body : DbM α} {f : α → Expected β} (h : Keeps P body) :
    KeepsCaught P (guarded (f <$> body)) := guarded_keeps (Triple.map h)

/-- The read behind a create keeps what the create does. -/
theorem repository_createProduct_keeps (hP : KeptByCalls A P) {product : Product}
    (h : A.product product) : KeepsCaught P (sqliteRecipeRepository.createProduct product) := by
  refine guarded_keeps ((createProduct_keeps hP h).bind fun productId => ?_)
  refine (getProduct_keeps hP.toKeptByReads).bind fun created => ?_
  cases created <;> exact Keeps.pure

theorem repository_createRecipe_keeps (hP : KeptByTransactions A inside outside)
    {recipe : Recipe} (h : Recipe.Admitted A recipe) :
    KeepsCaught outside (sqliteRecipeRepository.createRecipe recipe) := by
  refine guarded_keeps ((createRecipe_keeps hP h).bind fun recipeId => ?_)
  refine (getRecipe_keeps hP.outer.toKeptByReads).bind fun created => ?_
  cases created <;> exact Keeps.pure

/-- A use case that looks for an id after a call. -/
theorem requireFound_keeps {body : DbM (Expected Bool)} {message : String}
    (h : KeepsCaught P body) :
    KeepsCaught P (do return RecipeService.requireFound message (← body)) :=
  Triple.bind h fun _ => Triple.pure fun _ hm => hm

/-- Validation sees to the names, so the rest is up to the caller. -/
theorem admitted_of_validateRecipe {recipe : Recipe} (h : Recipe.Admitted (checked A) recipe)
    (hvalid : RecipeService.validateRecipe recipe = .ok ()) : Recipe.Admitted A recipe := by
  obtain ⟨hname, hingredients⟩ := RecipeService.validateRecipe_eq_ok.mp hvalid
  exact ⟨h.1 hname, fun i hi => h.2 i hi (hingredients i hi).1⟩

/-- **A service call keeps what calls with checked arguments keep, and never throws.** -/
theorem ServiceOperation.run_keeps (hP : KeptByTransactions A inside outside)
    (op : ServiceOperation) (hop : op.Admitted A) : KeepsCaught outside op.run := by
  have hproduct : ∀ {product : Product}, (checked A).product product →
      RecipeService.validateProduct product = .ok () → A.product product :=
    fun hop h => hop (RecipeService.validateProduct_eq_ok.mp h).1
  cases op with
  | createProduct product =>
      show KeepsCaught outside (RecipeService.createProduct _ product)
      unfold RecipeService.createProduct
      split
      · exact Triple.pure fun _ hm => hm
      · next h => exact repository_createProduct_keeps hP.outer (hproduct hop h)
  | getProduct productId => exact guarded_map_keeps (getProduct_keeps hP.outer.toKeptByReads)
  | getProducts => exact guarded_map_keeps (getAllProducts_keeps hP.outer.toKeptByReads)
  | updateProduct productId product =>
      show KeepsCaught outside (RecipeService.updateProduct _ productId product)
      unfold RecipeService.updateProduct
      split
      · exact Triple.pure fun _ hm => hm
      · next h =>
          exact requireFound_keeps
            (guarded_map_keeps (updateProduct_keeps hP.outer (hproduct hop h)))
  | deleteProduct productId =>
      exact requireFound_keeps (guarded_map_keeps (deleteProduct_keeps hP.outer))
  | createRecipe recipe =>
      show KeepsCaught outside (RecipeService.createRecipe _ recipe)
      unfold RecipeService.createRecipe
      split
      · exact Triple.pure fun _ hm => hm
      · next h => exact repository_createRecipe_keeps hP (admitted_of_validateRecipe hop h)
  | getRecipe recipeId => exact guarded_map_keeps (getRecipe_keeps hP.outer.toKeptByReads)
  | getRecipes => exact guarded_map_keeps (fetchRecipes_keeps hP.outer.toKeptByReads)
  | getCookableRecipes => exact guarded_map_keeps (fetchRecipes_keeps hP.outer.toKeptByReads)
  | updateRecipe recipeId recipe =>
      show KeepsCaught outside (RecipeService.updateRecipe _ recipeId recipe)
      unfold RecipeService.updateRecipe
      split
      · exact Triple.pure fun _ hm => hm
      · next h =>
          exact requireFound_keeps
            (guarded_map_keeps (updateRecipe_keeps hP (admitted_of_validateRecipe hop h)))
  | deleteRecipe recipeId =>
      exact requireFound_keeps (guarded_map_keeps (deleteRecipe_keeps hP.outer))

end

/-! ## Runs -/

/-- One call, and what SQLite makes of its steps. -/
inductive Call where
  | operation (environment : List StepOutcome) (op : Operation)
  | service (environment : List StepOutcome) (op : ServiceOperation)

namespace Call

def environment : Call → List StepOutcome
  | .operation environment _ | .service environment _ => environment

/-- The manager after the call. -/
def after : DBManager → Call → DBManager
  | m, .operation environment op => (runOn op.run (m.withEnvironment environment)).2
  | m, .service environment op => (runOn op.run (m.withEnvironment environment)).2

def isService : Call → Prop
  | .operation _ _ => False
  | .service _ _ => True

/-- What a call may store is admitted. -/
def Admitted (A : Admits) : Call → Prop
  | .operation _ op => op.Admitted A
  | .service _ op => op.Admitted A

theorem admitted_all (call : Call) : call.Admitted {} := by
  cases call with
  | operation environment op => exact op.admitted_all
  | service environment op => exact op.admitted_all

/-- The products and ingredients that are passed in. -/
def products : Call → List Product
  | .operation _ op => op.products
  | .service _ op => op.products

/-- Each of them has a dimension that the enumeration lists. -/
def Declared (call : Call) : Prop := ∀ product ∈ call.products, product.dimension.IsDeclared

/-- A call of the service stores names that are not empty. -/
theorem admitted_of_isService {call : Call} (h : call.isService) :
    call.Admitted ⟨fun name => name ≠ "", fun product => product.name ≠ ""⟩ := by
  cases call with
  | operation environment op => exact h.elim
  | service environment op =>
      cases op <;> first | trivial | exact fun hname => hname |
        exact ⟨fun hname => hname, fun _ _ hname => hname⟩

/-- A call with declared dimensions stores no others. -/
theorem Declared.admitted {call : Call} (h : call.Declared) :
    call.Admitted { product := fun product => product.dimension.IsDeclared } := by
  cases call with
  | operation environment op => exact op.admitted_of_products h
  | service environment op => exact op.admitted_of_products h

end Call

/-- All runs of calls from an empty database. -/
def managerRuns : System DBManager Call where
  init m := m = {}
  step m call m' := m' = call.after m

/-- The manager after some calls on an empty database. -/
def afterCalls (calls : List Call) : DBManager := calls.foldl Call.after {}

theorem reachable_afterCalls (calls : List Call) : managerRuns.Reachable (afterCalls calls) :=
  System.Reachable.of_fold (.init rfl) calls fun _ _ _ => rfl

theorem reachable_operation {m : DBManager} (h : managerRuns.Reachable m)
    (environment : List StepOutcome) (op : Operation) :
    managerRuns.Reachable (runOn op.run (m.withEnvironment environment)).2 :=
  h.step (l := .operation environment op) rfl

section

variable {A : Admits} {P inside outside : DBManager → Prop} {m : DBManager}

/-- Any call keeps what its operation does. -/
theorem Call.after_keeps (hP : KeptByTransactions A inside outside) {call : Call}
    (h : call.Admitted A) (hm : outside (m.withEnvironment call.environment)) :
    outside (call.after m) := by
  cases call with
  | operation environment op => exact (op.run_keeps hP h).after hm
  | service environment op =>
      -- nothing is thrown past the repository
      have hkeeps : Triple outside op.run (fun _ => outside) fun _ => outside :=
        (op.run_keeps hP h).conseq (fun _ h => h) (fun _ _ h => h) fun _ _ h => h.elim
      exact hkeeps.after hm

/-- A closed invariant of the empty database holds in every run whose calls pass what is admitted, and
no transaction is left open. -/
theorem rests_of_reachable {I : Tables → Sequences → Prop} (hI : Closed A I) (h0 : I {} {})
    {C : DBManager → Call → Prop} (hC : ∀ m call, C m call → call.Admitted A)
    (h : (managerRuns.restrict C).Reachable m) : Rests I m := by
  refine h.invariant ?_ ?_
  · rintro m rfl
    exact ⟨h0, rfl⟩
  · rintro m call _ hm ⟨hc, rfl⟩
    exact Call.after_keeps (rests_kept hI) (hC m call hc) hm

/-- **Every manager that can be reached is at rest, on valid tables.** -/
theorem rests_valid (h : managerRuns.Reachable m) : Rests Store.Valid m :=
  rests_of_reachable (Store.closed_valid _) Store.valid_empty (fun _ call _ => call.admitted_all)
    (h.restrict_of_forall (C := fun _ _ => True) fun _ _ => trivial)

end

/-- **The store invariant.** Every reachable store is valid, a store that only the service wrote to
holds no empty name, and one that was given declared dimensions holds no other ones. -/
theorem store_invariant :
    (∀ m, managerRuns.Reachable m → Store.Valid m.db.tables m.db.sequences) ∧
      (∀ m, (managerRuns.restrict fun _ call => call.isService).Reachable m →
        Store.Named m.db.tables) ∧
      ∀ m, (managerRuns.restrict fun _ call => call.Declared).Reachable m →
        Store.Declared m.db.tables := by
  refine ⟨fun m h => (rests_valid h).1, fun m h => ?_, fun m h => ?_⟩
  · have hfrom := (rests_of_reachable (Store.closed_from _) Store.from_empty
      (fun _ _ => Call.admitted_of_isService) h).1
    exact hfrom.named (fun _ hname => hname) fun _ hname => hname
  · have hfrom := (rests_of_reachable (Store.closed_from _) Store.from_empty
      (fun _ _ => Call.Declared.admitted) h).1
    exact hfrom.declared fun _ hdeclared => hdeclared

/-- A small kitchen, filled through the service. -/
def kitchenCalls : List Call :=
  let milk : Product := { name := "milk", amount := 500, dimension := .milliliter }
  let salt : Product := { name := "salt", amount := 0, dimension := .gramm }
  [.service [] (.createProduct milk),
    .service [] (.createRecipe { name := "pancakes", ingredients := [milk, salt] }),
    .service [] (.createRecipe { name := "water" })]

theorem store_invariant_kitchen :
    Store.Valid (afterCalls kitchenCalls).db.tables (afterCalls kitchenCalls).db.sequences ∧
      Store.Named (afterCalls kitchenCalls).db.tables ∧
      Store.Declared (afterCalls kitchenCalls).db.tables := by
  refine ⟨store_invariant.1 _ (reachable_afterCalls kitchenCalls), ?_, ?_⟩
  · refine store_invariant.2.1 _ (System.Reachable.of_fold (.init rfl) kitchenCalls
      fun _ call hcall => ⟨?_, rfl⟩)
    simp only [kitchenCalls, List.mem_cons, List.not_mem_nil, or_false] at hcall
    rcases hcall with rfl | rfl | rfl <;> trivial
  · have hdeclared : ∀ call ∈ kitchenCalls, ∀ product ∈ call.products,
        product.dimension.IsDeclared := by decide
    exact store_invariant.2.2 _ (System.Reachable.of_fold (.init rfl) kitchenCalls
      fun _ call hcall => ⟨hdeclared call hcall, rfl⟩)

/-- A product whose dimension the enumeration does not list. -/
def strangeCalls : List Call :=
  [.operation [] (.insertProduct { name := "tea", amount := 1, dimension := ⟨7⟩ })]

/-- Its dimension is stored as it is. -/
theorem undeclared_dimension_is_stored :
    managerRuns.Reachable (afterCalls strangeCalls) ∧
      (afterCalls strangeCalls).db.tables.products.map (fun p => (p.name, p.dimension)) =
        [("tea", 7)] ∧
      ¬ Store.Declared (afterCalls strangeCalls).db.tables := by
  have hstored : (afterCalls strangeCalls).db.tables.products.map (fun p => (p.name, p.dimension)) =
      [("tea", 7)] := by decide +kernel
  refine ⟨reachable_afterCalls strangeCalls, hstored, fun h => ?_⟩
  obtain ⟨p, hp, hrow⟩ := List.mem_map.mp (hstored ▸ List.mem_singleton_self ("tea", (7 : Int)))
  obtain ⟨d, hdeclared, hcode⟩ := h.products p hp
  have hlisted : ∀ d ∈ Dimension.enumerators, d.code ≠ 7 := by decide
  exact hlisted d hdeclared (hcode.trans (Prod.mk.inj hrow).2)

end RecipesCore.App
