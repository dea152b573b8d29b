import Mathlib.Algebra.BigOperators.Group.List.Basic
import Mathlib.Algebra.Group.Int.Defs
import RecipesCore.Db.ReadBack
import RecipesCore.Relational.Upserts

/-!
# The ingredients a recipe ends up with

A list of ingredients may name a product and dimension more than once, but the table has one row for
them. The rows are deleted and then inserted one by one, and `ON CONFLICT … DO UPDATE` lets a later
listing overwrite an earlier one: what is stored for a key is its last listing (`Filled`), while what
the list asks for is the `total`.
-/

namespace RecipesCore.Db

open RecipesCore.Logic RecipesCore.Logic.Program
open RecipesCore.Relational
open RecipesCore.Sqlite
open RecipesCore.Types
open DBManager

/-! ## Listed amounts -/

/-- What a list of ingredients requires of a key: the sum of the amounts listed for it. -/
def total (ingredients : List Product) (key : String × Int) : Int :=
  ((ingredients.filter fun i => decide (productKey i = key)).map fun i => i.amount.toInt).sum

/-- The amount of the last listing of a key. -/
def lastAmount : List Product → String × Int → Option Int
  | [], _ => none
  | i :: rest, key =>
      (lastAmount rest key).or (if productKey i = key then some i.amount.toInt else none)

/-- A listing that a later one of the same key overwrites asks for nothing. -/
def OverwrittenAreZero (ingredients : List Product) : Prop :=
  ingredients.Pairwise fun i later => productKey later = productKey i → i.amount.toInt = 0

instance (ingredients : List Product) : Decidable (OverwrittenAreZero ingredients) :=
  inferInstanceAs (Decidable (List.Pairwise _ _))

section

variable {ingredients : List Product} {i : Product} {key : String × Int} {amount : Int}

theorem total_cons : total (i :: ingredients) key =
    (if productKey i = key then i.amount.toInt else 0) + total ingredients key := by
  unfold total
  by_cases hkey : productKey i = key <;> simp [hkey]

/-- The amount of the last listing, by the listing. -/
theorem lastAmount_eq_lastListed (key : String × Int) : ∀ listed : List Product,
    lastAmount listed key = (lastListed productKey listed key).map fun i => i.amount.toInt
  | [] => rfl
  | i :: rest => by
      rw [lastAmount, lastListed, lastAmount_eq_lastListed key rest]
      cases lastListed productKey rest key with
      | some last => rfl
      | none => split <;> rfl

theorem lastAmount_append (listed : List Product) : lastAmount (listed ++ [i]) key =
    if productKey i = key then some i.amount.toInt else lastAmount listed key := by
  rw [lastAmount_eq_lastListed, lastAmount_eq_lastListed, lastListed_append]
  split
  · rfl
  · rfl

theorem lastAmount_eq_none :
    lastAmount ingredients key = none ↔ ∀ j ∈ ingredients, productKey j ≠ key := by
  rw [lastAmount_eq_lastListed, Option.map_eq_none_iff, lastListed_eq_none]

theorem total_eq_zero (h : lastAmount ingredients key = none) : total ingredients key = 0 := by
  have hfilter : (ingredients.filter fun i => decide (productKey i = key)) = [] :=
    List.filter_eq_nil_iff.mpr fun j hj => by simpa using lastAmount_eq_none.mp h j hj
  rw [total, hfilter, List.map_nil, List.sum_nil]

theorem lastAmount_le_total (hpos : ∀ j ∈ ingredients, 0 ≤ j.amount.toInt)
    (h : lastAmount ingredients key = some amount) : amount ≤ total ingredients key := by
  induction ingredients with
  | nil => simp [lastAmount] at h
  | cons i rest ih =>
      obtain ⟨hi, hrest⟩ := List.forall_mem_cons.mp hpos
      rw [total_cons]
      rw [lastAmount, Option.or_eq_some_iff] at h
      rcases h with hlast | ⟨hnone, hlast⟩
      · have := ih hrest hlast
        split <;> omega
      · split at hlast
        · next hkey =>
            obtain rfl := Option.some_inj.mp hlast
            rw [total_eq_zero hnone, if_pos hkey, add_zero]
        · cases hlast

/-- **Nothing is lost exactly when every overwritten listing asks for nothing.** -/
theorem total_eq_lastAmount_iff (hpos : ∀ j ∈ ingredients, 0 ≤ j.amount.toInt) :
    (∀ key, total ingredients key = (lastAmount ingredients key).getD 0) ↔
      OverwrittenAreZero ingredients := by
  induction ingredients with
  | nil => simp [total, lastAmount, OverwrittenAreZero]
  | cons i rest ih =>
      obtain ⟨hi, hrest⟩ := List.forall_mem_cons.mp hpos
      have ih := ih hrest
      unfold OverwrittenAreZero at ih ⊢
      rw [List.pairwise_cons, ← ih]
      simp only [total_cons, lastAmount]
      -- both sides speak about the key of `i` and about the rest of the list
      have hkey : (i.amount.toInt + total rest (productKey i) =
            ((lastAmount rest (productKey i)).or (some i.amount.toInt)).getD 0) ↔
          (∀ later ∈ rest, productKey later = productKey i → i.amount.toInt = 0) ∧
            total rest (productKey i) = (lastAmount rest (productKey i)).getD 0 := by
        cases hlast : lastAmount rest (productKey i) with
        | none =>
            have hno := lastAmount_eq_none.mp hlast
            rw [total_eq_zero hlast]
            simp only [Option.none_or, Option.getD_some, Option.getD_none, add_zero, and_true,
              true_iff]
            exact fun later hlater hsame => absurd hsame (hno later hlater)
        | some amount =>
            have hle := lastAmount_le_total hrest hlast
            obtain ⟨later, hlater, hsame⟩ : ∃ later ∈ rest, productKey later = productKey i := by
              by_contra hno
              have : lastAmount rest (productKey i) = none :=
                lastAmount_eq_none.mpr fun j hj hk => hno ⟨j, hj, hk⟩
              rw [hlast] at this
              cases this
            simp only [Option.some_or, Option.getD_some]
            constructor
            · intro heq
              exact ⟨fun _ _ _ => by omega, by omega⟩
            · rintro ⟨hzero, heq⟩
              rw [hzero later hlater hsame, heq, zero_add]
      constructor
      · intro h
        have hi := h (productKey i)
        simp only [if_true] at hi
        obtain ⟨hzero, hsame⟩ := hkey.mp hi
        refine ⟨hzero, fun key => ?_⟩
        by_cases heq : productKey i = key
        · exact heq ▸ hsame
        · simpa [heq] using h key
      · rintro ⟨hzero, hsame⟩ key
        by_cases heq : productKey i = key
        · subst heq
          simpa using hkey.mpr ⟨hzero, hsame (productKey i)⟩
        · simpa [heq] using hsame key

end

/-! ## Stored amounts -/

/-- The rows of a recipe say of each key what its last listing says. -/
def Filled (recipeId : Int) (listed : List Product) (tables : Tables) : Prop :=
  ∀ key amount, (∃ row ∈ tables.recipeIngredients, row.key = (recipeId, key) ∧
    row.requiredAmountBase = amount) ↔ lastAmount listed key = some amount

section

variable {recipeId : Int} {recipe : Recipe} {listed : List Product} {ingredient : Product}

variable {tables : Tables}

/-- The listed key has a row, which takes the amount. -/
theorem Filled.update (hfilled : Filled recipeId listed tables)
    (hrow : ∃ other ∈ tables.recipeIngredients, other.key = (recipeId, productKey ingredient)) :
    Filled recipeId (listed ++ [ingredient]) { tables with
      recipeIngredients := updateWhere
        (fun other => decide (other.key = (recipeId, productKey ingredient)))
        (fun other => { other with requiredAmountBase := ingredient.amount.toInt })
        tables.recipeIngredients } := by
  intro key amount
  obtain ⟨other, hother, hkey⟩ := hrow
  rw [lastAmount_append]
  by_cases heq : productKey ingredient = key
  · subst heq
    rw [if_pos rfl, Option.some_inj]
    constructor
    · rintro ⟨row, hrow, hrowKey, rfl⟩
      obtain ⟨-, hne⟩ | ⟨a, -, -, rfl⟩ := mem_updateWhere.mp hrow
      · exact absurd hrowKey (of_decide_eq_false hne)
      · rfl
    · rintro rfl
      exact ⟨{ other with requiredAmountBase := ingredient.amount.toInt },
        mem_updateWhere.mpr (Or.inr ⟨other, hother, decide_eq_true hkey, rfl⟩), hkey, rfl⟩
  · rw [if_neg heq, ← hfilled key amount]
    have hne : (recipeId, key) ≠ (recipeId, productKey ingredient) := fun h =>
      heq (Prod.mk.inj h).2.symm
    constructor
    · rintro ⟨row, hrow, hrowKey, hamount⟩
      obtain ⟨hrow, -⟩ | ⟨a, -, hsel, rfl⟩ := mem_updateWhere.mp hrow
      · exact ⟨row, hrow, hrowKey, hamount⟩
      · exact absurd (hrowKey.symm.trans (of_decide_eq_true hsel)) hne
    · rintro ⟨row, hrow, hrowKey, hamount⟩
      exact ⟨row, mem_updateWhere.mpr (Or.inl ⟨hrow, decide_eq_false (hrowKey ▸ hne)⟩), hrowKey,
        hamount⟩

/-- The listed key has no row, and gets one. -/
theorem Filled.append (hfilled : Filled recipeId listed tables) (rowid : Int)
    (hfree : ∀ other ∈ tables.recipeIngredients,
      other.key ≠ (recipeId, productKey ingredient)) :
    Filled recipeId (listed ++ [ingredient]) { tables with
      recipeIngredients := tables.recipeIngredients ++
        [ingredientRow rowid recipeId ingredient] } := by
  intro key amount
  rw [lastAmount_append]
  by_cases heq : productKey ingredient = key
  · subst heq
    rw [if_pos rfl, Option.some_inj]
    constructor
    · rintro ⟨row, hrow, hrowKey, rfl⟩
      obtain hrow | hrow := List.mem_append.mp hrow
      · exact absurd hrowKey (hfree row hrow)
      · rw [List.mem_singleton.mp hrow]
        rfl
    · rintro rfl
      exact ⟨_, List.mem_append_right _ (List.mem_singleton_self _), rfl, rfl⟩
  · rw [if_neg heq, ← hfilled key amount]
    constructor
    · rintro ⟨row, hrow, hrowKey, hamount⟩
      obtain hrow | hrow := List.mem_append.mp hrow
      · exact ⟨row, hrow, hrowKey, hamount⟩
      · rw [List.mem_singleton.mp hrow, ingredientRow_key] at hrowKey
        exact absurd (Prod.mk.inj hrowKey).2 heq
    · rintro ⟨row, hrow, hrowKey, hamount⟩
      exact ⟨row, List.mem_append_left _ hrow, hrowKey, hamount⟩

theorem insertIngredient_filled :
    Triple (fun m => Filled recipeId listed m.db.tables) (insertIngredient recipeId ingredient)
      (fun _ m => Filled recipeId (listed ++ [ingredient]) m.db.tables) (fun _ _ => True) := by
  rw [insertIngredient_eq]
  refine (execBound_triple (J := fun db _ => Filled recipeId listed db.tables)).conseq
    (fun _ h => h) ?_ (fun _ _ _ => trivial)
  intro _ m hm
  obtain ⟨gap, db, hfilled, hsql⟩ := hm
  obtain ⟨-, ⟨hrow, hdb⟩ | ⟨hfree, -, hdb⟩⟩ := insertRecipeIngredient_effect.mp hsql
  · rw [hdb]
    exact hfilled.update hrow
  · rw [hdb]
    exact hfilled.append _ hfree

/-- **Replacing the ingredients** leaves, for each key, its last listing. -/
theorem replaceRecipeIngredients_filled :
    Triple (fun _ => True) (replaceRecipeIngredients recipeId recipe)
      (fun _ m => Filled recipeId recipe.ingredients m.db.tables) (fun _ _ => True) := by
  rw [replaceRecipeIngredients_eq]
  refine Triple.bind (Q := fun _ m => Filled recipeId [] m.db.tables) ?_ fun _ =>
    Triple.forM_done (I := fun listed (m : DBManager) => Filled recipeId listed m.db.tables)
      fun _ _ => insertIngredient_filled
  refine (execBound_triple (J := fun _ _ => True)).conseq (fun _ h => h) ?_ (fun _ _ h => h)
  rintro _ m ⟨gap, db, -, hsql⟩ key amount
  rw [deleteRecipeIngredients_effect.mp hsql]
  simp only [lastAmount, reduceCtorEq, iff_false, not_exists, not_and]
  intro row hrow hrowKey
  have hid : row.recipeId = recipeId := congrArg Prod.fst hrowKey
  exact absurd hid (of_decide_eq_false (mem_deleteWhere.mp hrow).2)

end

/-! ## What readers make of it -/

section

variable {tables : Tables} {sequences : Sequences} {recipeId : Int} {listed : List Product}

theorem productKey_storedIngredient (hv : Store.Valid tables sequences) {row : IngredientRow}
    (hrow : row ∈ tables.recipeIngredients) :
    productKey (storedIngredient row) = (row.productName, row.dimension) :=
  Prod.ext rfl (storedIngredient_fields hv hrow).1

/-- **A recipe that is read back requires of each key its last listing.** -/
theorem total_storedIngredients (hv : Store.Valid tables sequences)
    (h : Filled recipeId listed tables) (key : String × Int) :
    total (storedIngredients tables recipeId) key = (lastAmount listed key).getD 0 := by
  have hrows : total (storedIngredients tables recipeId) key =
      ((tables.recipeIngredients.filter fun row => decide (row.key = (recipeId, key))).map
        fun row => row.requiredAmountBase).sum := by
    have hperm := ((orderBy_perm (fun row : IngredientRow => toLex (row.productName, row.dimension))
      (tables.recipeIngredients.filter fun row => decide (row.recipeId = recipeId))).map
      storedIngredient).filter fun i => decide (productKey i = key)
    rw [total, storedIngredients, (hperm.map fun i => i.amount.toInt).sum_eq, List.filter_map,
      List.map_map, List.filter_filter]
    refine congrArg List.sum ?_
    have hfilter : (tables.recipeIngredients.filter fun row =>
        ((fun i => decide (productKey i = key)) ∘ storedIngredient) row &&
          decide (row.recipeId = recipeId)) =
        tables.recipeIngredients.filter fun row => decide (row.key = (recipeId, key)) := by
      refine List.filter_congr fun row hrow => ?_
      rw [Function.comp, productKey_storedIngredient hv hrow, ← Bool.decide_and]
      simp only [decide_eq_decide, IngredientRow.key, Prod.ext_iff]
      exact and_comm
    rw [hfilter]
    refine List.map_congr_left fun row hrow => ?_
    exact (storedIngredient_fields hv (List.mem_filter.mp hrow).1).2
  rw [hrows]
  cases hlast : lastAmount listed key with
  | none =>
      have hnone : (tables.recipeIngredients.filter fun row => decide (row.key = (recipeId, key))) =
          [] := by
        refine List.filter_eq_nil_iff.mpr fun row hrow hkey => ?_
        have := (h key row.requiredAmountBase).mp ⟨row, hrow, of_decide_eq_true hkey, rfl⟩
        rw [hlast] at this
        cases this
      rw [hnone]
      rfl
  | some amount =>
      obtain ⟨row, hrow, hkey, rfl⟩ := (h key amount).mpr hlast
      rw [← hkey, filter_key_eq hv.ingredientKeys hrow]
      simp

/-- The recipe is cookable from a stock that has every key it lists, and enough of it. -/
theorem cookable_filled (h : Filled recipeId listed tables) {recipe : Recipe}
    (hid : recipe.id = some recipeId) :
    cookable tables recipe = true ↔ ∀ key amount, lastAmount listed key = some amount →
      ∃ p ∈ tables.products, p.key = key ∧ amount ≤ p.amountBase := by
  rw [cookable_eq_true, hid]
  constructor
  · intro hcook key amount hlast
    obtain ⟨row, hrow, hkey, rfl⟩ := (h key amount).mpr hlast
    obtain ⟨hrecipe, hkey⟩ := Prod.mk.inj hkey
    obtain ⟨p, hp, hname, hdimension, hle⟩ := hcook row hrow (congrArg some hrecipe.symm)
    exact ⟨p, hp, by rw [← hkey, ProductRow.key, hname, hdimension], hle⟩
  · intro hstock row hrow hrecipe
    obtain rfl := Option.some_inj.mp hrecipe
    obtain ⟨p, hp, hkey, hle⟩ := hstock (row.productName, row.dimension) row.requiredAmountBase
      ((h _ _).mp ⟨row, hrow, rfl, rfl⟩)
    obtain ⟨hname, hdimension⟩ := Prod.mk.inj hkey
    exact ⟨p, hp, hname, hdimension, hle⟩

end

end RecipesCore.Db
