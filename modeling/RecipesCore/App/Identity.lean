import RecipesCore.App.Runs
import RecipesCore.Db.Identity
import RecipesCore.Db.Mirror
import RecipesCore.Logic.Lifetime

/-!
# Ids are stable and never recycled

Clients keep ids in their URLs, so an id has to mean one thing as long as it means anything.
`Identified` gathers what that takes: where the rows of an id are stored, what a read shows of them,
and what an operation may do to them. Products and recipes are the two instances; over whole runs
the rest is `UsedOnce`.
-/

namespace RecipesCore.App

open RecipesCore.Db RecipesCore.Db.DBManager
open RecipesCore.Logic RecipesCore.Logic.Program
open RecipesCore.Sqlite
open RecipesCore.Types

/-! ## Runs of operations -/

/-- One operation of a run, and what SQLite makes of its steps. -/
structure Turn where
  environment : List StepOutcome := []
  operation : Operation
  deriving DecidableEq, Repr

namespace Turn

def result (m : DBManager) (turn : Turn) : Except DbException Returned :=
  (runOn turn.operation.run (m.withEnvironment turn.environment)).1

/-- The manager after a turn, returned or thrown. -/
def after (m : DBManager) (turn : Turn) : DBManager :=
  (runOn turn.operation.run (m.withEnvironment turn.environment)).2

theorem result_eq_ok {m : DBManager} {turn : Turn} {r : Returned} (h : turn.result m = .ok r) :
    runOn turn.operation.run (m.withEnvironment turn.environment) = (.ok r, turn.after m) :=
  Prod.ext h rfl

theorem after_keeps {I : Tables → Sequences → Prop} {m : DBManager} {turn : Turn}
    (h : Keeps (Rests I) turn.operation.run) (hm : Rests I m) : Rests I (turn.after m) :=
  h.after (s := m.withEnvironment turn.environment) hm

end Turn

/-- The manager after some turns. -/
def afterTurns (m : DBManager) (turns : List Turn) : DBManager := turns.foldl Turn.after m

/-! ## What reads show -/

/-- The products a call returned. -/
def shownProducts : Returned → List Product
  | .product product => product.toList
  | .products products => products
  | _ => []

def shownRecipes : Returned → List Recipe
  | .recipe recipe => recipe.toList
  | .recipes recipes => recipes
  | _ => []

/-- The recipe a reader makes of its rows. -/
def readRecipe (rows : RecipeRows) : Recipe :=
  { name := rows.1.name
    ingredients := (Relational.orderBy
      (fun row : IngredientRow => toLex (row.productName, row.dimension)) rows.2).map
      storedIngredient
    id := some rows.1.id }

section

variable {m m' : DBManager} {op : Operation} {r : Returned}

/-- A product that is shown with an id is the one stored under it. -/
theorem shownProducts_stored (hv : Store.Valid m.db.tables m.db.sequences)
    (h : runOn op.run m = (.ok r, m')) {product : Product} (hshown : product ∈ shownProducts r)
    {productId : Int} (hid : product.id = some productId) :
    ∃ row, productAt m.db.tables productId = some row ∧ readProduct row.columns = product := by
  have hrow : ∀ row ∈ m.db.tables.products, readProduct row.columns = product →
      ∃ row, productAt m.db.tables productId = some row ∧ readProduct row.columns = product := by
    rintro row hrow rfl
    exact ⟨row, (productAt_eq_some hv).mpr ⟨hrow, Option.some_inj.mp hid⟩, rfl⟩
  cases op with
  | getProduct id =>
      obtain ⟨found, hrun, rfl⟩ := runOn_map_eq_ok h
      have hfound := (getProduct_exact hrun).1
      have hmem : findProduct m.db.tables id = some product := by
        rw [← hfound]
        exact Option.mem_toList.mp hshown
      obtain ⟨row, hhead, hread⟩ := Option.map_eq_some_iff.mp hmem
      exact hrow row (List.mem_filter.mp (List.mem_of_mem_head? hhead)).1 hread
  | getAllProducts =>
      obtain ⟨products, hrun, rfl⟩ := runOn_map_eq_ok h
      have hproducts := getAllProducts_readsAs.exact _ _ _ hrun
      rw [foldl_append_map, List.nil_append] at hproducts
      rw [shownProducts, hproducts] at hshown
      obtain ⟨columns, hcolumns, hread⟩ := List.mem_map.mp hshown
      obtain ⟨row, hmem, rfl⟩ := List.mem_map.mp hcolumns
      exact hrow row ((Relational.mem_orderBy _).mp hmem) hread
  | getRecipeIngredients recipeId =>
      -- ingredients are shown without an id
      obtain ⟨ingredients, hrun, rfl⟩ := runOn_map_eq_ok h
      have hingredients := (getRecipeIngredients_readsAs recipeId).exact _ _ _ hrun
      rw [foldl_append_map, List.nil_append] at hingredients
      rw [shownProducts, hingredients] at hshown
      obtain ⟨columns, -, rfl⟩ := List.mem_map.mp hshown
      cases hid
  | insertProduct _ | insertProducts _ | insertRecipe _ | insertRecipes _ =>
      obtain ⟨_, _, _, hpure⟩ := runOn_bind_eq_ok h
      cases hpure
      cases hshown
  | _ =>
      obtain ⟨_, _, rfl⟩ := runOn_map_eq_ok h
      cases hshown

/-- A recipe that is shown with an id is the one stored under it. -/
theorem shownRecipes_stored (hv : Store.Valid m.db.tables m.db.sequences)
    (h : runOn op.run m = (.ok r, m')) {recipe : Recipe} (hshown : recipe ∈ shownRecipes r)
    {recipeId : Int} (hid : recipe.id = some recipeId) :
    ∃ rows, recipeAt m.db.tables recipeId = some rows ∧ readRecipe rows = recipe := by
  have hstored : recipe ∈ storedRecipes m.db.tables →
      ∃ rows, recipeAt m.db.tables recipeId = some rows ∧ readRecipe rows = recipe := by
    intro hmem
    obtain ⟨row, hrow, rfl⟩ := mem_storedRecipes.mp hmem
    exact ⟨(row, ingredientsOf m.db.tables row.id),
      (recipeAt_eq_some hv).mpr ⟨hrow, Option.some_inj.mp hid, by rw [Option.some_inj.mp hid]⟩, rfl⟩
  cases op with
  | getRecipe id =>
      obtain ⟨found, hrun, rfl⟩ := runOn_map_eq_ok h
      have hfound : found = findRecipe (storedRecipes m.db.tables) id :=
        ((getRecipe_readsAs id).exact _ _ _ hrun).trans (selectRecipeById_fetch hv id)
      rw [shownRecipes, hfound] at hshown
      exact hstored (List.mem_of_find?_eq_some (Option.mem_toList.mp hshown))
  | getAllRecipes =>
      obtain ⟨recipes, hrun, rfl⟩ := runOn_map_eq_ok h
      have hrecipes : recipes = storedRecipes m.db.tables :=
        ((fetchRecipes_readsAs _).exact _ _ _ hrun).trans (selectAllRecipes_fetch hv (params []))
      rw [shownRecipes, hrecipes] at hshown
      exact hstored hshown
  | getCookableRecipes =>
      obtain ⟨recipes, hrun, rfl⟩ := runOn_map_eq_ok h
      have hrecipes : recipes = (storedRecipes m.db.tables).filter (cookable m.db.tables) :=
        ((fetchRecipes_readsAs _).exact _ _ _ hrun).trans (selectCookableRecipes_fetch hv (params []))
      rw [shownRecipes, hrecipes] at hshown
      exact hstored (List.mem_filter.mp hshown).1
  | insertProduct _ | insertProducts _ | insertRecipe _ | insertRecipes _ =>
      obtain ⟨_, _, _, hpure⟩ := runOn_bind_eq_ok h
      cases hpure
      cases hshown
  | _ =>
      obtain ⟨_, _, rfl⟩ := runOn_map_eq_ok h
      cases hshown

end

/-! ## What an id names -/

/-- What clients name by an id. -/
structure Identified where
  Rows : Type
  Value : Type
  stored : Tables → Int → Option Rows
  /-- The highest id used so far. -/
  last : Sequences → Int
  Revision : Rows → Operation → Rows → Prop
  delete : Int → Operation
  create : Operation → Bool
  read : Rows → Value
  idOf : Value → Option Int
  shown : Returned → List Value
  stored_le_last : ∀ {t : Tables} {q : Sequences} {id : Int} {a : Rows},
    Store.Valid t q → stored t id = some a → id ≤ last q
  counted : ∀ (op : Operation) (id : Int), Keeps (Rests fun _ q => id ≤ last q) op.run
  gone : ∀ (op : Operation) (id : Int),
    Keeps (Rests fun t q => Store.Valid t q ∧ id ≤ last q ∧ stored t id = none) op.run
  kept : ∀ {m : DBManager} {id : Int} {a : Rows}, Rests Store.Valid m →
    stored m.db.tables id = some a → ∀ op : Operation,
    (stored (runOn op.run m).2.db.tables id = none ∧ op = delete id) ∨
      ∃ b, stored (runOn op.run m).2.db.tables id = some b ∧ Became Revision a op b
  deleted : ∀ {m m' : DBManager} {id : Int}, Rests Store.Valid m →
    runOn (delete id).run m = (.ok (.bool true), m') →
    (∃ a, stored m.db.tables id = some a) ∧ stored m'.db.tables id = none
  created : ∀ {m m' : DBManager} {op : Operation} {id : Int}, create op = true →
    runOn op.run m = (.ok (.id id), m') → last m.db.sequences < id
  shows : ∀ {m m' : DBManager} {op : Operation} {r : Returned} {v : Value} {id : Int},
    Store.Valid m.db.tables m.db.sequences → runOn op.run m = (.ok r, m') → v ∈ shown r →
    idOf v = some id → ∃ a, stored m.db.tables id = some a ∧ read a = v

def products : Identified where
  Rows := ProductRow
  Value := Product
  stored := productAt
  last sequences := sequences.products
  Revision := ProductRevision
  delete := .deleteProduct
  create
    | .createProduct _ => true
    | _ => false
  read row := readProduct row.columns
  idOf product := product.id
  shown := shownProducts
  stored_le_last hv ha := by
    obtain ⟨hrow, rfl⟩ := (productAt_eq_some hv).mp ha
    exact (hv.productIdRange _ hrow).2
  counted op id := op.run_preserves fun _ _ _ _ _ hissued hle hsql =>
    hle.trans (hissued.sequences_le hsql).1
  gone := Operation.run_productGone
  kept hrest ha op := Operation.product_kept hrest ha op
  deleted {m _ id} hrest hrun := by
    have hpre := And.intro hrest.1 (And.intro (Eq.refl m.db.tables) (Eq.refl m.db.sequences))
    have htarget : (Operation.deleteProduct id).target = some (.product id) := rfl
    obtain ⟨b, hb, hiff⟩ := (Operation.run_exact htarget).of_ok hpre hrun
    obtain rfl : true = b := by simpa using hb
    obtain ⟨row, hrow, hid⟩ : HasProduct id m.db.tables := hiff.mp rfl
    exact ⟨⟨row, (productAt_eq_some hrest.1).mpr ⟨hrow, hid⟩⟩,
      Operation.run_deleteProduct.of_ok hpre hrun⟩
  created {m _ op id} hop hrun := by
    cases op with
    | createProduct product =>
        obtain ⟨productId, hid, hlt⟩ := (Operation.run_createProduct product).of_ok
          (And.intro (Eq.refl m.db.tables) (Eq.refl m.db.sequences)) hrun
        obtain rfl := Returned.id.inj hid
        exact hlt
    | _ => cases hop
  shows hv h hshown hid := shownProducts_stored hv h hshown hid

def recipes : Identified where
  Rows := RecipeRows
  Value := Recipe
  stored := recipeAt
  last sequences := sequences.recipes
  Revision := RecipeRevision
  delete := .deleteRecipe
  create
    | .createRecipe _ => true
    | _ => false
  read := readRecipe
  idOf recipe := recipe.id
  shown := shownRecipes
  stored_le_last hv ha := by
    obtain ⟨hrow, rfl, -⟩ := (recipeAt_eq_some hv).mp ha
    exact (hv.recipeIdRange _ hrow).2
  counted op id := op.run_preserves fun _ _ _ _ _ hissued hle hsql =>
    hle.trans (hissued.sequences_le hsql).2
  gone := Operation.run_recipeGone
  kept hrest ha op := Operation.recipe_kept hrest ha op
  deleted {m _ id} hrest hrun := by
    have hpre := And.intro hrest.1 (And.intro (Eq.refl m.db.tables) (Eq.refl m.db.sequences))
    have htarget : (Operation.deleteRecipe id).target = some (.recipe id) := rfl
    obtain ⟨b, hb, hiff⟩ := (Operation.run_exact htarget).of_ok hpre hrun
    obtain rfl : true = b := by simpa using hb
    obtain ⟨row, hrow, hid⟩ : HasRecipe id m.db.tables := hiff.mp rfl
    exact ⟨⟨(row, ingredientsOf m.db.tables id), (recipeAt_eq_some hrest.1).mpr ⟨hrow, hid, rfl⟩⟩,
      Operation.run_deleteRecipe.of_ok hpre hrun⟩
  created {m _ op id} hop hrun := by
    cases op with
    | createRecipe recipe =>
        obtain ⟨recipeId, hid, hlt, -⟩ := (Operation.run_createRecipe recipe).of_ok
          (And.intro (Eq.refl m.db.tables) (Eq.refl m.db.sequences)) hrun
        obtain rfl := Returned.id.inj hid
        exact hlt
    | _ => cases hop
  shows hv h hshown hid := shownRecipes_stored hv h hshown hid

namespace Identified

variable (k : Identified)

/-- What a turn shows of the values with an id. -/
def shownBy (m : DBManager) (turn : Turn) : List k.Value :=
  match turn.result m with
  | .ok r => k.shown r
  | .error _ => []

/-- What an id names along a run of turns. -/
abbrev Lives (id : Int) : DBManager → k.Rows → List Turn → k.Rows → Prop :=
  Lineage Turn.after (fun m => k.stored m.db.tables id)
    (fun a turn b => k.Revision a turn.operation b)

theorem usedOnce (id : Int) :
    UsedOnce Turn.after (Rests Store.Valid) (fun m => k.stored m.db.tables id)
      (fun m => id ≤ k.last m.db.sequences) (fun a turn b => k.Revision a turn.operation b)
      (fun turn => turn.operation = k.delete id) where
  valid_next turn hm := turn.after_keeps turn.operation.run_valid hm
  spent_of_view hm ha := k.stored_le_last hm.1 ha
  kept turn hm ha :=
    k.kept (m := DBManager.withEnvironment turn.environment _) hm ha turn.operation
  spent_next turn hm hle := (turn.after_keeps (k.counted turn.operation id) ⟨hle, hm.2⟩).1
  not_reissued turn hm hle hnone :=
    (turn.after_keeps (k.gone turn.operation id) ⟨⟨hm.1, hle, hnone⟩, hm.2⟩).1.2.2

/-- An id means one thing as long as it means anything. -/
structure Stable (m : DBManager) (id : Int) : Prop where
  /-- What two reads show under the id is one thing, changed only by revisions. -/
  same : ∀ first turns last v w, v ∈ k.shownBy m first → k.idOf v = some id →
    w ∈ k.shownBy (afterTurns m (first :: turns)) last → k.idOf w = some id →
    ∃ a b, k.read a = v ∧ k.read b = w ∧ k.Lives id m a (first :: turns) b
  /-- It lives to the end of the run or until it is deleted by its id. -/
  lifetime : ∀ turns a, k.stored m.db.tables id = some a →
    (∃ b, k.Lives id m a turns b) ∨
      ∃ before turn rest b, turns = before ++ turn :: rest ∧ k.Lives id m a before b ∧
        turn.operation = k.delete id ∧ k.stored (afterTurns m turns).db.tables id = none
  /-- After a delete nothing is stored, shown or created under the id again. -/
  neverAgain : ∀ environment turns,
    Turn.result m ⟨environment, k.delete id⟩ = .ok (.bool true) →
    k.stored (afterTurns m (⟨environment, k.delete id⟩ :: turns)).db.tables id = none ∧
      ∀ turn, (∀ v ∈ k.shownBy (afterTurns m (⟨environment, k.delete id⟩ :: turns)) turn,
          k.idOf v ≠ some id) ∧
        (k.create turn.operation = true →
          turn.result (afterTurns m (⟨environment, k.delete id⟩ :: turns)) ≠ .ok (.id id))

variable {k}

theorem shownBy_stored {m : DBManager} (hm : Rests Store.Valid m) {turn : Turn} {v : k.Value}
    (hv : v ∈ k.shownBy m turn) {id : Int} (hid : k.idOf v = some id) :
    ∃ a, k.stored m.db.tables id = some a ∧ k.read a = v := by
  unfold shownBy at hv
  split at hv
  · next r hr =>
      exact k.shows (m := m.withEnvironment turn.environment) hm.1 (Turn.result_eq_ok hr) hv hid
  · simp at hv

theorem stable_of_rests {m : DBManager} (hm : Rests Store.Valid m) (id : Int) : k.Stable m id where
  same first turns last v w hv hvid hw hwid := by
    have hafter := (k.usedOnce id).valid_run (first :: turns) hm
    obtain ⟨a, ha, rfl⟩ := shownBy_stored hm hv hvid
    obtain ⟨b, hb, rfl⟩ := shownBy_stored hafter hw hwid
    exact ⟨a, b, rfl, rfl, (k.usedOnce id).lineage (first :: turns) hm ha hb⟩
  lifetime turns a ha := (k.usedOnce id).fate turns hm ha
  neverAgain environment turns hdelete := by
    obtain ⟨⟨a, ha⟩, hnone⟩ := k.deleted (m := m.withEnvironment environment) hm
      (Turn.result_eq_ok hdelete)
    let delete : Turn := ⟨environment, k.delete id⟩
    have hrest := (k.usedOnce id).valid_next delete hm
    have hspent := (k.usedOnce id).spent_next delete hm (k.stored_le_last hm.1 ha)
    obtain ⟨hle, hgone⟩ := (k.usedOnce id).gone_run turns hrest hspent hnone
    refine ⟨hgone, fun turn => ⟨fun v hv hid => ?_, fun hcreate hresult => ?_⟩⟩
    · obtain ⟨b, hb, -⟩ := shownBy_stored ((k.usedOnce id).valid_run turns hrest) hv hid
      exact Option.some_ne_none b (hb.symm.trans hgone)
    · have := k.created hcreate (Turn.result_eq_ok hresult)
      exact absurd hle (not_le.mpr this)

end Identified

/-- **Ids are stable and never recycled**, for products and for recipes. -/
theorem ids_stable {m : DBManager} (h : managerRuns.Reachable m) (id : Int) :
    products.Stable m id ∧ recipes.Stable m id :=
  ⟨Identified.stable_of_rests (rests_valid h) id, Identified.stable_of_rests (rests_valid h) id⟩

theorem ids_stable_kitchen :
    products.Stable (afterCalls kitchenCalls) 1 ∧ recipes.Stable (afterCalls kitchenCalls) 1 :=
  ids_stable (reachable_afterCalls kitchenCalls) 1

/-- The milk is deleted; milk that is created again gets another id. -/
example : Turn.result (afterTurns (afterCalls kitchenCalls) [{ operation := .deleteProduct 1 }])
    { operation := .createProduct { name := "milk", amount := 500, dimension := .milliliter } } =
    .ok (.id 2) := by decide +kernel

end RecipesCore.App
