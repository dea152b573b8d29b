import RecipesCore.Db.Failures
import RecipesCore.Db.Frames

/-!
# Why an operation throws

On a manager on which no statement was left failed, an operation throws for two reasons: SQLite
fails in one of its steps, or a statement breaks a constraint. A write that throws leaves the reason
behind, in the step that was taken last or in the failure its statement carries, and `SqliteFails`
reads it there.

`Ready n` counts the steps while nothing has gone wrong. An operation that can break a uniqueness
constraint checks it in one fixed step, and `Explained` says what a throw then tells.
-/

namespace RecipesCore.Db

open RecipesCore.Logic RecipesCore.Logic.Program
open RecipesCore.Relational
open RecipesCore.Sqlite
open RecipesCore.Types
open DBManager

/-! ## Reasons -/

/-- The `n`th step failed on its own, and no further step was taken. -/
def FailedAt (environment : List StepOutcome) (n : Nat) (m : DBManager) : Prop :=
  ∃ exception, environment[n]? = some (.fail exception) ∧ m.environment = environment.drop (n + 1)

/-- SQLite failed for another reason than a uniqueness constraint: in a step of its own, or in a
statement that carries another code. -/
def SqliteFails (environment : List StepOutcome) (m : DBManager) : Prop :=
  (∃ n, FailedAt environment n m) ∨
    ∃ u exception, m.failureOf u = some exception ∧ exception.code ≠ .constraintUnique

/-- `n` steps were taken, all went on, and no statement carries a failure. -/
structure Ready (environment : List StepOutcome) (n : Nat) (m : DBManager) : Prop where
  unfailed : Unfailed m
  taken : m.environment = environment.drop n
  wentOn : ∀ exception, .fail exception ∉ environment.take n

/-- The statement `w` took the `n`th step and raised `exception`. -/
structure Raised (environment : List StepOutcome) (n gap : Nat) (w : Write)
    (exception : SqliteException) (m : DBManager) : Prop where
  proceeds : (nextOutcome (environment.drop n)).1 = .proceed gap
  failures : ∀ u, m.failureOf u = if u = .write w then some exception else none
  taken : m.environment = environment.drop (n + 1)
  wentOn : ∀ exception, .fail exception ∉ environment.take (n + 1)

section

variable {environment rest : List StepOutcome} {n k gap : Nat} {exception : SqliteException}
  {m : DBManager}

/-- A step that fails is one of those ahead: without any SQLite goes on. -/
theorem nextOutcome_fail (h : nextOutcome (environment.drop n) = (.fail exception, rest)) :
    environment[n]? = some (.fail exception) := by
  have hdrop : (environment.drop n)[0]? = environment[n]? := by simp
  rw [← hdrop]
  cases henv : environment.drop n with
  | nil =>
      rw [henv] at h
      cases h
  | cons outcome outcomes =>
      rw [henv] at h
      cases h
      rfl

theorem nextOutcome_rest {outcome : StepOutcome}
    (h : nextOutcome (environment.drop n) = (outcome, rest)) :
    rest = environment.drop (n + 1) := by
  rw [nextOutcome_drop h, List.drop_drop]

/-- A step that goes on is no failure. -/
theorem wentOn_succ (h : ∀ exception, .fail exception ∉ environment.take n)
    (hnext : (nextOutcome (environment.drop n)).1 = .proceed gap) :
    ∀ exception, .fail exception ∉ environment.take (n + 1) := by
  intro exception hmem
  rw [List.take_add_one, List.mem_append] at hmem
  apply hmem.elim (h exception)
  intro hlast
  have hat : environment[n]? = some (.fail exception) := by simpa using hlast
  cases henv : environment.drop n with
  | nil =>
      have : environment.length ≤ n := List.drop_eq_nil_iff.mp henv
      rw [List.getElem?_eq_none this] at hat
      cases hat
  | cons outcome outcomes =>
      have hhead : (environment.drop n)[0]? = environment[n]? := by simp
      rw [henv, hat] at hhead
      rw [henv] at hnext
      cases hhead
      cases hnext

/-- A failure at a step is one of the steps before any later one. -/
theorem FailedAt.mem_take (h : FailedAt environment n m) (hk : n < k) :
    ∃ exception, .fail exception ∈ environment.take k := by
  obtain ⟨exception, hat, -⟩ := h
  refine ⟨exception, List.mem_of_getElem? (i := n) ?_⟩
  rw [List.getElem?_take_of_lt hk, hat]

/-- Where a step failed, fewer steps were taken before it than are taken now. -/
theorem FailedAt.lt (h : FailedAt environment n m) (hk : m.environment = environment.drop k) :
    n < k := by
  obtain ⟨exception, hat, hdrop⟩ := h
  have hlt : n < environment.length := (List.getElem?_eq_some_iff.mp hat).1
  have hlength := congrArg List.length (hdrop.symm.trans hk)
  rw [List.length_drop, List.length_drop] at hlength
  omega

/-- Where the steps gone by hold no failure, nothing has failed. -/
theorem not_failedAt (hk : m.environment = environment.drop k)
    (hon : ∀ exception, .fail exception ∉ environment.take k) : ¬ FailedAt environment n m := by
  intro h
  obtain ⟨exception, hmem⟩ := h.mem_take (h.lt hk)
  exact hon exception hmem

theorem ready_start (h : Unfailed m) : Ready environment 0 (m.withEnvironment environment) where
  unfailed := h
  taken := rfl
  wentOn exception hmem := by simp at hmem

end

/-! ## Calls -/

section

variable {environment : List StepOutcome} {n : Nat} {w : Write} {r : Read} {values : List Value}
  {J : Database → Option (Tables × Sequences) → Prop}

/-- A step is the next of those ahead, or the one that failed. -/
theorem step_ready {s : StatementId} :
    Triple (Ready environment n) (step s)
      (fun gap m => Ready environment (n + 1) m ∧
        (nextOutcome (environment.drop n)).1 = .proceed gap)
      (fun _ => FailedAt environment n) := by
  intro m hm
  rcases nextOutcome_cases m.environment with ⟨gap, rest, h⟩ | ⟨exception, rest, h⟩
  · rw [runOn_step h]
    rw [hm.taken] at h
    have hgap : (nextOutcome (environment.drop n)).1 = .proceed gap := by rw [h]
    exact ⟨⟨hm.unfailed, nextOutcome_rest h, wentOn_succ hm.wentOn hgap⟩, hgap⟩
  · rw [runOn_step_fail h]
    rw [hm.taken] at h
    exact ⟨exception, nextOutcome_fail h, nextOutcome_rest h⟩

/-- No statement was left failed, so preparing one does not throw. -/
theorem prepare_ready {s : StatementId} :
    Triple (fun m => Ready environment n m ∧ J m.db m.saved) (prepare s values)
      (fun _ m => (Ready environment n m ∧ J m.db m.saved) ∧
        (m.statements s).bindings = params values)
      (fun _ _ => False) := by
  intro m hm
  rw [runOn_prepare, hm.1.unfailed s]
  refine ⟨⟨⟨fun u => ?_, hm.1.taken, hm.1.wentOn⟩, hm.2⟩, by simp [prepared]⟩
  rw [failureOf_prepared, hm.1.unfailed u, ite_self]

/-- **A writing call** fails in its step, or its statement raises what the SQL raises. -/
theorem execBound_ready :
    Triple (fun m => Ready environment n m ∧ J m.db m.saved) (execBound w values)
      (fun _ m => Ready environment (n + 1) m ∧ ∃ gap db,
        (nextOutcome (environment.drop n)).1 = .proceed gap ∧ J db m.saved ∧
          w.sql (params values) gap db = .ok m.db)
      (fun _ m => FailedAt environment n m ∨ ∃ gap exception,
        Raised environment n gap w exception m ∧ J m.db m.saved ∧
          w.sql (params values) gap m.db = .error exception) := by
  refine Triple.bind (prepare_ready.conseq (fun _ h => h) (fun _ _ h => h) (fun _ _ h => h.elim))
    fun _ => ?_
  intro m hm
  obtain ⟨⟨hready, hJ⟩, hparams⟩ := hm
  rcases nextOutcome_cases m.environment with ⟨gap, rest, h⟩ | ⟨exception, rest, h⟩
  · have hstep := step_ready.of_ok hready (runOn_step (s := .write w) h)
    rw [exec, runOn_bind_ok (runOn_step h), runOn_primitive, hparams]
    cases hsql : w.sql (params values) gap m.db with
    | ok db =>
        show Ready environment (n + 1) { m with environment := rest, db } ∧ _
        exact ⟨⟨hstep.1.unfailed, hstep.1.taken, hstep.1.wentOn⟩, gap, m.db, hstep.2, hJ, hsql⟩
    | error exception =>
        refine Or.inr ⟨gap, exception, ⟨hstep.2, fun u => ?_, hstep.1.taken, hstep.1.wentOn⟩, hJ,
          hsql⟩
        rw [DBManager.recordFailure, failureOf_setStatement]
        split
        · rfl
        · exact hready.unfailed u
  · have hstep := step_ready.of_error hready (runOn_step_fail (s := .write w) h)
    rw [exec, runOn_bind_error (runOn_step_fail h)]
    exact Or.inl hstep

/-- `BEGIN` and `COMMIT`. -/
theorem execDirect_ready {f : DBManager → DBManager}
    {K : Database → Option (Tables × Sequences) → Prop}
    (hf : ∀ m, (f m).environment = m.environment ∧ (f m).statements = m.statements)
    (hJ : ∀ m, J m.db m.saved → K (f m).db (f m).saved) :
    Triple (fun m => Ready environment n m ∧ J m.db m.saved) (execDirect f)
      (fun _ m => Ready environment (n + 1) m ∧ K m.db m.saved)
      (fun _ m => FailedAt environment n m) := by
  intro m hm
  obtain ⟨hready, hm⟩ := hm
  rcases nextOutcome_cases m.environment with ⟨gap, rest, h⟩ | ⟨exception, rest, h⟩
  · simp only [execDirect, runOn_primitive, h]
    rw [hready.taken] at h
    have hgap : (nextOutcome (environment.drop n)).1 = .proceed gap := by rw [h]
    refine ⟨⟨fun u => ?_, ?_, wentOn_succ hready.wentOn hgap⟩, hJ { m with environment := rest } hm⟩
    · rw [failureOf, (hf _).2]
      exact hready.unfailed u
    · rw [(hf _).1]
      exact nextOutcome_rest h
  · simp only [execDirect, runOn_primitive, h]
    rw [hready.taken] at h
    exact ⟨exception, nextOutcome_fail h, nextOutcome_rest h⟩

/-! ## Parts that break no constraint -/

/-- Some steps were taken, all went on, and no statement carries a failure. -/
def Going (environment : List StepOutcome) (m : DBManager) : Prop := ∃ n, Ready environment n m

/-- A part that throws only when one of its steps fails on its own. -/
abbrev Steady {α : Type} (environment : List StepOutcome) (P : DBManager → Prop) (body : DbM α)
    (Q : α → DBManager → Prop) : Prop :=
  Triple (fun m => Going environment m ∧ P m) body (fun a m => Going environment m ∧ Q a m)
    (fun _ m => ∃ n, FailedAt environment n m)

/-- However many steps were taken before. -/
theorem Steady.of_ready {α : Type} {P : DBManager → Prop} {body : DbM α}
    {Q : α → DBManager → Prop}
    (h : ∀ n, Triple (fun m => Ready environment n m ∧ P m) body
      (fun a m => Going environment m ∧ Q a m) (fun _ m => ∃ n, FailedAt environment n m)) :
    Steady environment P body Q := by
  intro m hm
  obtain ⟨⟨n, hready⟩, hP⟩ := hm
  exact h n m ⟨hready, hP⟩

/-- A call whose statement raises nothing. -/
theorem execBound_steady
    (hsql : ∀ gap db saved, J db saved → ∃ db', w.sql (params values) gap db = .ok db') :
    Steady environment (fun m => J m.db m.saved) (execBound w values)
      (fun _ m => ∃ gap db, J db m.saved ∧ w.sql (params values) gap db = .ok m.db) := by
  apply Steady.of_ready
  intro n
  apply execBound_ready.conseq (fun _ h => h)
  · intro _ m h
    obtain ⟨hready, gap, db, -, hJ, hsql⟩ := h
    exact ⟨⟨_, hready⟩, gap, db, hJ, hsql⟩
  · intro _ m h
    rcases h with hfailed | ⟨gap, exception, -, hJ, hraised⟩
    · exact ⟨_, hfailed⟩
    · obtain ⟨db', hok⟩ := hsql gap m.db m.saved hJ
      rw [hok] at hraised
      cases hraised

theorem step_steady {s : StatementId} :
    Steady environment (fun _ => True) (step s) (fun _ _ => True) := by
  apply Steady.of_ready
  intro n
  exact step_ready.conseq (fun _ h => h.1) (fun _ _ h => ⟨⟨_, h.1⟩, trivial⟩) fun _ _ h => ⟨_, h⟩

theorem prepare_steady {s : StatementId} :
    Steady environment (fun _ => True) (prepare s values) (fun _ _ => True) := by
  apply Steady.of_ready
  intro n
  exact (prepare_ready (J := fun _ _ => True)).conseq (fun _ h => h)
    (fun _ _ h => ⟨⟨_, h.1.1⟩, trivial⟩) fun _ _ h => h.elim

theorem stepThrough_steady {β : Type} (visit : β → Row → β) (rows : List Row) :
    ∀ acc : β,
      Steady environment (fun _ => True) (stepThrough r visit acc rows) (fun _ _ => True) := by
  induction rows with
  | nil =>
      intro acc
      exact step_steady.bind fun _ => Triple.pure fun _ hm => hm
  | cons row rows ih =>
      intro acc
      exact step_steady.bind fun _ => ih (visit acc row)

/-- **A `SELECT` call** raises nothing. -/
theorem queryBound_steady {β : Type} {visit : β → Row → β} {start : β} :
    Steady environment (fun _ => True) (queryBound r values visit start) (fun _ _ => True) := by
  refine prepare_steady.bind fun _ => ?_
  refine Triple.bind (Q := fun _ (m : DBManager) => Going environment m ∧ True) (fun _ hm => hm)
    fun rows => ?_
  exact stepThrough_steady visit rows start

theorem firstBound_steady :
    Steady environment (fun _ => True) (firstBound r values) (fun _ _ => True) := by
  refine prepare_steady.bind fun _ => step_steady.bind fun _ => ?_
  refine Triple.bind (Q := fun _ (m : DBManager) => Going environment m ∧ True) (fun _ hm => hm)
    fun rows => ?_
  exact Triple.pure fun _ hm => hm

theorem commit_steady {Q : Tables → Prop} :
    Steady environment (fun m => Q m.db.tables) commit (fun _ m => Q m.db.tables) := by
  apply Steady.of_ready
  intro n
  refine (execDirect_ready (J := fun db _ => Q db.tables) (K := fun db _ => Q db.tables)
    (f := fun m => { m with saved := none }) (fun _ => ⟨rfl, rfl⟩) (fun _ h => h)).conseq
      (fun _ h => h) ?_ fun _ _ h => ⟨_, h⟩
  exact fun _ _ h => ⟨⟨_, h.1⟩, h.2⟩

/-- With amounts that are not negative, and the recipe stored, no ingredient breaks a constraint. -/
theorem replaceRecipeIngredients_steady (recipeId : Int) {recipe : Recipe}
    (hamounts : ∀ i ∈ recipe.ingredients, 0 ≤ i.amount.toInt) :
    Steady environment (fun m => HasRecipe recipeId m.db.tables)
      (replaceRecipeIngredients recipeId recipe) (fun _ m => HasRecipe recipeId m.db.tables) := by
  rw [replaceRecipeIngredients_eq]
  refine Triple.bind (Q := fun _ (m : DBManager) => Going environment m ∧
    HasRecipe recipeId m.db.tables) ?_ fun _ => ?_
  · refine (execBound_steady (J := fun db _ => HasRecipe recipeId db.tables) ?_).conseq
      (fun _ h => h) ?_ (fun _ _ h => h)
    · intro gap db saved _
      exact ⟨_, deleteRecipeIngredients_effect.mpr rfl⟩
    · intro _ m h
      obtain ⟨hgoing, gap, db, hdb, hsql⟩ := h
      rw [deleteRecipeIngredients_effect.mp hsql]
      exact ⟨hgoing, hdb⟩
  · refine Triple.forM fun ingredient hmem => ?_
    rw [insertIngredient_eq]
    refine (execBound_steady (J := fun db _ => HasRecipe recipeId db.tables) ?_).conseq
      (fun _ h => h) ?_ (fun _ _ h => h)
    · -- the recipe is there, so the foreign key holds; a row with this key is overwritten
      intro gap db saved hrecipe
      by_cases hkey : ∃ other ∈ db.tables.recipeIngredients,
          other.key = (recipeId, productKey ingredient)
      · exact ⟨_, insertRecipeIngredient_effect.mpr ⟨hamounts ingredient hmem, Or.inl ⟨hkey, rfl⟩⟩⟩
      · have hfree : ∀ other ∈ db.tables.recipeIngredients,
            other.key ≠ (recipeId, productKey ingredient) :=
          fun other hother heq => hkey ⟨other, hother, heq⟩
        exact ⟨_, insertRecipeIngredient_effect.mpr
          ⟨hamounts ingredient hmem, Or.inr ⟨hfree, hrecipe, rfl⟩⟩⟩
    · intro _ m h
      obtain ⟨hgoing, gap, db, hdb, hsql⟩ := h
      obtain ⟨-, ⟨-, heq⟩ | ⟨-, -, heq⟩⟩ := insertRecipeIngredient_effect.mp hsql
      · rw [heq]
        exact ⟨hgoing, hdb⟩
      · rw [heq]
        exact ⟨hgoing, hdb⟩

end

/-! ## Rollbacks -/

section

variable {environment : List StepOutcome} {n : Nat} {m : DBManager}

theorem rollback_environment : (rollbackUnlessCommitted m).environment = m.environment := by
  unfold rollbackUnlessCommitted
  split <;> rfl

/-- A rollback does not reset any statement. -/
theorem rollback_failureOf (u : StatementId) :
    (rollbackUnlessCommitted m).failureOf u = m.failureOf u := by
  rw [failureOf, statements_rollback]
  rfl

theorem failedAt_rollback :
    FailedAt environment n (rollbackUnlessCommitted m) ↔ FailedAt environment n m := by
  unfold FailedAt
  rw [rollback_environment]

theorem sqliteFails_rollback :
    SqliteFails environment (rollbackUnlessCommitted m) ↔ SqliteFails environment m := by
  unfold SqliteFails
  simp only [failedAt_rollback, rollback_failureOf]

theorem Going.rollback (h : Going environment m) :
    Going environment (rollbackUnlessCommitted m) := by
  obtain ⟨n, hready⟩ := h
  refine ⟨n, fun u => ?_, ?_, hready.wentOn⟩
  · rw [rollback_failureOf, hready.unfailed]
  · rw [rollback_environment, hready.taken]

end

/-! ## What the constraints raise -/

section

open PreparedStatements

variable {gap : Nat} {db : Database} {product : Product} {recipeId productId : Int}
  {name : String} {exception : SqliteException}

theorem except_bind_eq_error {ε α β : Type} {x : Except ε α} {f : α → Except ε β} {e : ε} :
    Bind.bind x f = .error e ↔ x = .error e ∨ ∃ a, x = .ok a ∧ f a = .error e := by
  cases x <;> simp [Bind.bind, Except.bind]

theorem ite_eq_error {ε α : Type} {c : Prop} [Decidable c] {x y : Except ε α} {e : ε} :
    (if c then x else y) = .error e ↔ (c ∧ x = .error e) ∨ (¬ c ∧ y = .error e) := by
  by_cases hc : c <;> simp [hc]

/-- There is no new id only when the ids have run out. -/
theorem nextId_eq_error {last : Int} :
    nextId last gap = .error exception ↔
      2 ^ 63 ≤ last + 1 + gap ∧ exception = sequenceFull := by
  unfold nextId
  rw [ite_eq_error]
  simp [eq_comm]

/-- A create raises an error when the ids have run out, the amount is negative or the key is used.
-/
theorem createProduct_raises :
    Write.createProduct.sql (params (productValues product)) gap db = .error exception ↔
      (2 ^ 63 ≤ db.sequences.products + 1 + gap ∧ exception = sequenceFull) ∨
      (db.sequences.products + 1 + gap < 2 ^ 63 ∧
        ((product.amount.toInt < 0 ∧ exception = checkFailed "amount_base >= 0") ∨
          (0 ≤ product.amount.toInt ∧
            (∃ other ∈ db.tables.products, other.key = productKey product) ∧
            exception = uniqueFailed "products.name, products.dimension"))) := by
  have hb := fun id => boundProduct_productValues id product []
  rw [List.append_nil] at hb
  simp only [Write.sql, kCreateProduct, except_bind_eq_error, nextId_eq_error, nextId_eq_ok, hb,
    ite_eq_error, reduceCtorEq, and_false, or_false, Except.error.injEq, any_decide_iff]
  apply or_congr Iff.rfl
  constructor
  · rintro ⟨id, ⟨rfl, hroom⟩, hraised⟩
    refine ⟨hroom, hraised.imp ?_ ?_⟩
    · exact fun h => ⟨h.1, h.2.symm⟩
    · exact fun h => ⟨not_lt.mp h.1, h.2.1, h.2.2.symm⟩
  · rintro ⟨hroom, hraised⟩
    refine ⟨_, ⟨rfl, hroom⟩, hraised.imp ?_ ?_⟩
    · exact fun h => ⟨h.1, h.2.symm⟩
    · exact fun h => ⟨not_lt.mpr h.1, h.2.1, h.2.2.symm⟩

/-- An update of a stored product raises one when the amount is negative or another row has the key.
-/
theorem updateProduct_raises :
    Write.updateProductById.sql (params (productValues product ++ [.integer productId])) gap db
        = .error exception ↔
      (∃ row ∈ db.tables.products, row.id = productId) ∧
        ((product.amount.toInt < 0 ∧ exception = checkFailed "amount_base >= 0") ∨
          (0 ≤ product.amount.toInt ∧
            (∃ other ∈ db.tables.products, other.id ≠ productId ∧ other.key = productKey product) ∧
            exception = uniqueFailed "products.name, products.dimension")) := by
  have hb := boundProduct_productValues 0 product [.integer productId]
  have hp6 : params (productValues product ++ [.integer productId]) 6 = .integer productId := rfl
  simp only [Write.sql, kUpdateProductById, hb, hp6, Value.eq_integer, ite_eq_error, reduceCtorEq,
    and_false, or_false, Except.error.injEq, List.any_eq_true, Bool.and_eq_true,
    Bool.not_eq_true', decide_eq_false_iff_not, decide_eq_true_eq]
  apply and_congr_right
  intro _
  apply or_congr (and_congr_right fun _ => eq_comm)
  exact and_congr not_lt (and_congr_right fun _ => eq_comm)

/-- A create of a recipe raises one when the ids have run out or the name is used. -/
theorem createRecipe_raises :
    Write.createRecipe.sql (params [.text name]) gap db = .error exception ↔
      (2 ^ 63 ≤ db.sequences.recipes + 1 + gap ∧ exception = sequenceFull) ∨
      (db.sequences.recipes + 1 + gap < 2 ^ 63 ∧
        (∃ other ∈ db.tables.recipes, other.name = name) ∧
        exception = uniqueFailed "recipes.name") := by
  have hp1 : params [.text name] 1 = .text name := rfl
  simp only [Write.sql, kCreateRecipe, except_bind_eq_error, nextId_eq_error, nextId_eq_ok, hp1,
    ite_eq_error, reduceCtorEq, and_false, or_false, Except.error.injEq, any_decide_iff]
  apply or_congr Iff.rfl
  constructor
  · rintro ⟨id, ⟨rfl, hroom⟩, hex, rfl⟩
    exact ⟨hroom, hex, rfl⟩
  · rintro ⟨hroom, hex, rfl⟩
    exact ⟨_, ⟨rfl, hroom⟩, hex, rfl⟩

/-- A rename raises one when another recipe has the name. -/
theorem updateRecipeName_raises :
    Write.updateRecipeNameById.sql (params [.text name, .integer recipeId]) gap db
        = .error exception ↔
      HasRecipe recipeId db.tables ∧
        (∃ other ∈ db.tables.recipes, other.id ≠ recipeId ∧ other.name = name) ∧
        exception = uniqueFailed "recipes.name" := by
  have hp1 : params [.text name, .integer recipeId] 1 = .text name := rfl
  have hp2 : params [.text name, .integer recipeId] 2 = .integer recipeId := rfl
  simp only [Write.sql, kUpdateRecipeNameById, hp1, hp2, Value.eq_integer, ite_eq_error,
    reduceCtorEq, and_false, or_false, Except.error.injEq, List.any_eq_true, Bool.and_eq_true,
    Bool.not_eq_true', decide_eq_false_iff_not, decide_eq_true_eq]
  exact and_congr_right fun _ => and_congr_right fun _ => eq_comm

end

/-! ## Writes that check uniqueness -/

/-- SQLite fails on its own in one of the first `n + 1` steps, or it finds no id in the last of
them; `last` is the highest id used, where the step inserts. -/
def Interrupted (environment : List StepOutcome) (n : Nat) (last : Option Int) : Prop :=
  (∃ exception, .fail exception ∈ environment.take (n + 1)) ∨
    ∃ gap : Nat, (nextOutcome (environment.drop n)).1 = .proceed gap ∧
      ∃ used ∈ last, 2 ^ 63 ≤ used + 1 + gap

/-- Another product has the key. -/
def KeyUsed (tables : Tables) (product : Product) : Prop :=
  ∃ other ∈ tables.products, other.key = productKey product

def KeyUsedBeside (tables : Tables) (productId : Int) (product : Product) : Prop :=
  ∃ other ∈ tables.products, other.id ≠ productId ∧ other.key = productKey product

/-- Another recipe has the name. -/
def NameUsed (tables : Tables) (name : String) : Prop := ∃ other ∈ tables.recipes, other.name = name

def NameUsedBeside (tables : Tables) (recipeId : Int) (name : String) : Prop :=
  ∃ other ∈ tables.recipes, other.id ≠ recipeId ∧ other.name = name

/-- What a throw tells of an operation that checks a uniqueness constraint in step `n`: without a
failure of SQLite's there was a conflict, and with a conflict SQLite fails only before the check. -/
structure Explained (environment : List StepOutcome) (n : Nat) (last : Option Int)
    (conflict : Prop) (m : DBManager) : Prop where
  reason : ¬ SqliteFails environment m → conflict
  interrupted : conflict → (SqliteFails environment m ↔ Interrupted environment n last)

section

variable {environment : List StepOutcome} {n k gap : Nat} {last : Option Int} {conflict : Prop}
  {w : Write} {exception : SqliteException} {m : DBManager}

theorem FailedAt.sqliteFails (h : FailedAt environment k m) : SqliteFails environment m :=
  Or.inl ⟨k, h⟩

theorem FailedAt.explained (h : FailedAt environment k m) (hk : k ≤ n) :
    Explained environment n last conflict m where
  reason hno := absurd h.sqliteFails hno
  interrupted _ := ⟨fun _ => Or.inl (h.mem_take (Nat.lt_succ_of_le hk)), fun _ => h.sqliteFails⟩

/-- After the check there is no conflict. -/
theorem FailedAt.explained_late (h : ∃ k, FailedAt environment k m) (hfree : ¬ conflict) :
    Explained environment n last conflict m where
  reason hno := absurd (Or.inl h) hno
  interrupted hconflict := absurd hconflict hfree

/-- An error that is not about uniqueness comes from ids that have run out. -/
theorem Raised.explained_full {used : Int} (h : Raised environment n gap w exception m)
    (hcode : exception.code ≠ .constraintUnique) (hfull : 2 ^ 63 ≤ used + 1 + gap) :
    Explained environment n (some used) conflict m := by
  have hfails : SqliteFails environment m :=
    Or.inr ⟨.write w, exception, by rw [h.failures, if_pos rfl], hcode⟩
  refine ⟨fun hno => absurd hfails hno, fun _ => ⟨fun _ => Or.inr ?_, fun _ => hfails⟩⟩
  exact ⟨gap, h.proceeds, used, rfl, hfull⟩

/-- An error about uniqueness comes from the conflict. -/
theorem Raised.explained_unique (h : Raised environment n gap w exception m)
    (hcode : exception.code = .constraintUnique) (hroom : ∀ used ∈ last, used + 1 + gap < 2 ^ 63)
    (hconflict : conflict) : Explained environment n last conflict m := by
  refine ⟨fun _ => hconflict, fun _ => ⟨fun hfails => ?_, fun hinterrupted => ?_⟩⟩
  · exfalso
    rcases hfails with ⟨k, hat⟩ | ⟨u, other, hu, hother⟩
    · exact not_failedAt h.taken h.wentOn hat
    · rw [h.failures] at hu
      split at hu
      · cases hu
        exact hother hcode
      · cases hu
  · exfalso
    rcases hinterrupted with ⟨other, hmem⟩ | ⟨gap', hproceeds, used, hused, hfull⟩
    · exact h.wentOn other hmem
    · obtain rfl : gap = gap' := StepOutcome.proceed.inj (h.proceeds.symm.trans hproceeds)
      have := hroom used hused
      omega

theorem Explained.congr {conflict' : Prop} (h : Explained environment n last conflict m)
    (hiff : conflict' ↔ conflict) : Explained environment n last conflict' m where
  reason hno := hiff.mpr (h.reason hno)
  interrupted hconflict := h.interrupted (hiff.mp hconflict)

theorem Explained.rollback (h : Explained environment n last conflict m) :
    Explained environment n last conflict (rollbackUnlessCommitted m) where
  reason hno := h.reason (mt sqliteFails_rollback.mpr hno)
  interrupted hconflict := sqliteFails_rollback.trans (h.interrupted hconflict)

end

section

variable {environment : List StepOutcome} {t : Tables} {q : Sequences} {product : Product}
  {recipe : Recipe} {recipeId productId : Int}

/-- The operation starts on these tables. -/
abbrev Starts (environment : List StepOutcome) (n : Nat) (t : Tables) (q : Sequences)
    (m : DBManager) : Prop :=
  Ready environment n m ∧ m.db.tables = t ∧ m.db.sequences = q

/-- **A create of a product fails for a reason**: SQLite fails, the ids run out or the key is used.
-/
theorem createProduct_explained (hamount : 0 ≤ product.amount.toInt) :
    Triple (Starts environment 0 t q) (createProduct product)
      (fun _ m => Going environment m ∧ ¬ KeyUsed t product)
      (fun _ => Explained environment 0 (some q.products) (KeyUsed t product)) := by
  rw [createProduct_eq]
  refine Triple.bind (Q := fun _ (m : DBManager) => Going environment m ∧ ¬ KeyUsed t product) ?_
    fun _ => fun _ hm => hm
  refine (execBound_ready (J := fun db _ => db.tables = t ∧ db.sequences = q)).conseq
    (fun _ h => h) ?_ ?_
  · intro _ m h
    obtain ⟨hready, gap, db, -, ⟨rfl, rfl⟩, hsql⟩ := h
    obtain ⟨id, -, -, hfree, -⟩ := createProduct_effect.mp hsql
    exact ⟨⟨_, hready⟩, fun ⟨other, hother, hkey⟩ => hfree other hother hkey⟩
  · intro _ m h
    rcases h with hfailed | ⟨gap, exception, hraised, ⟨rfl, rfl⟩, hsql⟩
    · exact hfailed.explained (Nat.le_refl 0)
    · rcases createProduct_raises.mp hsql with ⟨hfull, rfl⟩ | ⟨hroom, hchecks⟩
      · exact hraised.explained_full (by decide) hfull
      · rcases hchecks with ⟨hnegative, -⟩ | ⟨-, hused, rfl⟩
        · omega
        · refine hraised.explained_unique rfl ?_ hused
          intro used hmem
          obtain rfl := Option.some_inj.mp hmem
          exact hroom

/-- An update of a product fails when SQLite does or another product has the key. -/
theorem updateProduct_explained (hamount : 0 ≤ product.amount.toInt) :
    Triple (Starts environment 0 t q) (updateProduct productId product)
      (fun _ m => Going environment m ∧
        ¬ (HasProduct productId t ∧ KeyUsedBeside t productId product))
      (fun _ => Explained environment 0 none
        (HasProduct productId t ∧ KeyUsedBeside t productId product)) := by
  rw [updateProduct_eq]
  refine Triple.bind (Q := fun _ (m : DBManager) => Going environment m ∧
    ¬ (HasProduct productId t ∧ KeyUsedBeside t productId product)) ?_ fun _ => fun _ hm => hm
  refine (execBound_ready (J := fun db _ => db.tables = t ∧ db.sequences = q)).conseq
    (fun _ h => h) ?_ ?_
  · intro _ m h
    obtain ⟨hready, gap, db, -, ⟨rfl, rfl⟩, hsql⟩ := h
    refine ⟨⟨_, hready⟩, fun hclash => ?_⟩
    obtain ⟨⟨row, hrow, hid⟩, other, hother, hne, hkey⟩ := hclash
    rcases updateProduct_effect.mp hsql with ⟨hno, -⟩ | ⟨-, -, hfree, -⟩
    · exact hno row hrow hid
    · exact hfree other hother hne hkey
  · intro _ m h
    rcases h with hfailed | ⟨gap, exception, hraised, ⟨rfl, rfl⟩, hsql⟩
    · exact hfailed.explained (Nat.le_refl 0)
    · obtain ⟨hex, ⟨hnegative, -⟩ | ⟨-, hused, rfl⟩⟩ := updateProduct_raises.mp hsql
      · omega
      · exact hraised.explained_unique rfl (fun _ hnone => by cases hnone) ⟨hex, hused⟩

/-- The steps of a transaction: `BEGIN`, then the block, whose reasons survive the rollback. -/
theorem transaction_explained {α : Type} {block : DbM α} {n : Nat} {last : Option Int}
    {conflict : Prop} {P : Prop}
    (h : Triple (Starts environment 1 t q) block (fun _ m => Going environment m ∧ P)
      (fun _ => Explained environment n last conflict)) :
    Triple (Starts environment 0 t q) (transaction block) (fun _ m => Going environment m ∧ P)
      (fun _ => Explained environment n last conflict) := by
  refine Triple.bind (Q := fun _ => Starts environment 1 t q) ?_ fun _ => Triple.ensuring
    (h.conseq (fun _ h => h) (fun _ _ h => ⟨h.1.rollback, h.2⟩) (fun _ _ h => h.rollback))
  refine (execDirect_ready (J := fun db _ => db.tables = t ∧ db.sequences = q)
    (K := fun db _ => db.tables = t ∧ db.sequences = q)
    (f := fun m => { m with saved := some (m.db.tables, m.db.sequences) })
    (fun _ => ⟨rfl, rfl⟩) (fun _ h => h)).conseq (fun _ h => h) (fun _ _ h => h) ?_
  exact fun _ _ h => h.explained (Nat.zero_le n)

/-- What follows the check throws only when SQLite fails, and there is no conflict then. -/
theorem Steady.explained {α : Type} {body : DbM α} {P : DBManager → Prop}
    {Q : α → DBManager → Prop} {n : Nat} {last : Option Int} {conflict : Prop}
    (h : Steady environment P body Q) :
    Triple (fun m => (Going environment m ∧ P m) ∧ ¬ conflict) body
      (fun a m => (Going environment m ∧ Q a m) ∧ ¬ conflict)
      (fun _ => Explained environment n last conflict) := by
  intro m hm
  exact h.conseq (fun _ h => h) (fun _ _ h => ⟨h, hm.2⟩)
    (fun _ _ h => FailedAt.explained_late h hm.2) m hm.1

/-- The ingredients and the commit, after the recipe's row is written. -/
theorem replaceCommit_explained {α : Type} {a : α} {n : Nat} {last : Option Int} {conflict : Prop}
    (hamounts : ∀ i ∈ recipe.ingredients, 0 ≤ i.amount.toInt) :
    Triple (fun m => (Going environment m ∧ HasRecipe recipeId m.db.tables) ∧ ¬ conflict)
      (do
        replaceRecipeIngredients recipeId recipe
        commit
        return a)
      (fun _ m => Going environment m ∧ ¬ conflict)
      (fun _ => Explained environment n last conflict) := by
  refine (replaceRecipeIngredients_steady recipeId hamounts).explained.bind fun _ => ?_
  refine (commit_steady (Q := HasRecipe recipeId)).explained.bind fun _ => ?_
  exact Triple.pure fun _ h => ⟨h.1.1, h.2⟩

/-- A create of a recipe fails when SQLite does, the ids run out or the name is used. -/
theorem createRecipe_explained (hamounts : ∀ i ∈ recipe.ingredients, 0 ≤ i.amount.toInt) :
    Triple (Starts environment 0 t q) (createRecipe recipe)
      (fun _ m => Going environment m ∧ ¬ NameUsed t recipe.name)
      (fun _ => Explained environment 1 (some q.recipes) (NameUsed t recipe.name)) := by
  rw [createRecipe_eq]
  apply transaction_explained
  refine Triple.bind (Q := fun _ (m : DBManager) => (Going environment m ∧
    HasRecipe m.db.lastInsertRowid m.db.tables) ∧ ¬ NameUsed t recipe.name) ?_ fun _ => ?_
  · refine (execBound_ready (J := fun db _ => db.tables = t ∧ db.sequences = q)).conseq
      (fun _ h => h) ?_ ?_
    · intro _ m h
      obtain ⟨hready, gap, db, -, ⟨rfl, rfl⟩, hsql⟩ := h
      obtain ⟨id, -, hfree, heq⟩ := createRecipe_effect.mp hsql
      refine ⟨⟨⟨_, hready⟩, ?_⟩, fun ⟨other, hother, hname⟩ => hfree other hother hname⟩
      rw [heq]
      exact ⟨{ id, name := recipe.name }, by simp, rfl⟩
    · intro _ m h
      rcases h with hfailed | ⟨gap, exception, hraised, ⟨rfl, rfl⟩, hsql⟩
      · exact hfailed.explained (Nat.le_refl 1)
      · rcases createRecipe_raises.mp hsql with ⟨hfull, rfl⟩ | ⟨hroom, hused, rfl⟩
        · exact hraised.explained_full (by decide) hfull
        · refine hraised.explained_unique rfl ?_ hused
          intro used hmem
          obtain rfl := Option.some_inj.mp hmem
          exact hroom
  · refine Triple.bind (Q := fun recipeId (m : DBManager) => (Going environment m ∧
      HasRecipe recipeId m.db.tables) ∧ ¬ NameUsed t recipe.name) (fun _ hm => hm)
        fun recipeId => ?_
    exact replaceCommit_explained hamounts

/-- An update of a recipe fails when SQLite does or another recipe has the name. -/
theorem updateRecipe_explained (hamounts : ∀ i ∈ recipe.ingredients, 0 ≤ i.amount.toInt) :
    Triple (Starts environment 0 t q) (updateRecipe recipeId recipe)
      (fun _ m => Going environment m ∧
        ¬ (HasRecipe recipeId t ∧ NameUsedBeside t recipeId recipe.name))
      (fun _ => Explained environment 1 none
        (HasRecipe recipeId t ∧ NameUsedBeside t recipeId recipe.name)) := by
  rw [updateRecipe_eq]
  apply transaction_explained
  refine Triple.bind (Q := fun _ (m : DBManager) => (Going environment m ∧
    (m.db.changes = 1 → HasRecipe recipeId m.db.tables)) ∧
      ¬ (HasRecipe recipeId t ∧ NameUsedBeside t recipeId recipe.name)) ?_ fun _ => ?_
  · refine (execBound_ready (J := fun db _ => db.tables = t ∧ db.sequences = q)).conseq
      (fun _ h => h) ?_ ?_
    · intro _ m h
      obtain ⟨hready, gap, db, -, ⟨rfl, rfl⟩, hsql⟩ := h
      rcases updateRecipeName_effect.mp hsql with ⟨hno, heq⟩ | ⟨⟨row, hrow, hid⟩, hfree, heq⟩
      · refine ⟨⟨⟨_, hready⟩, fun hone => by simp [heq] at hone⟩, ?_⟩
        intro hclash
        obtain ⟨⟨row, hrow, hid⟩, -⟩ := hclash
        exact hno row hrow hid
      · refine ⟨⟨⟨_, hready⟩, fun _ => ?_⟩, ?_⟩
        · rw [heq]
          exact ⟨{ row with name := recipe.name },
            mem_updateWhere.mpr (Or.inr ⟨row, hrow, decide_eq_true hid, rfl⟩), hid⟩
        · intro hclash
          obtain ⟨-, other, hother, hne, hname⟩ := hclash
          exact hfree other hother hne hname
    · intro _ m h
      rcases h with hfailed | ⟨gap, exception, hraised, ⟨rfl, rfl⟩, hsql⟩
      · exact hfailed.explained (Nat.le_refl 1)
      · obtain ⟨hex, hused, rfl⟩ := updateRecipeName_raises.mp hsql
        exact hraised.explained_unique rfl (fun _ hnone => by cases hnone) ⟨hex, hused⟩
  · refine Triple.bind (Q := fun changes (m : DBManager) => (Going environment m ∧
      (changes = 1 → HasRecipe recipeId m.db.tables)) ∧
        ¬ (HasRecipe recipeId t ∧ NameUsedBeside t recipeId recipe.name)) (fun _ hm => hm)
          fun changes => ?_
    split
    · exact Triple.pure fun _ h => ⟨h.1.1, h.2⟩
    · next hone =>
        have hone : changes = 1 := by simpa using hone
        exact (replaceCommit_explained hamounts).conseq (fun _ h => ⟨⟨h.1.1, h.1.2 hone⟩, h.2⟩)
          (fun _ _ h => h) (fun _ _ h => h)

/-! ## Deletes -/

/-- A delete breaks no constraint. -/
theorem deleteProduct_steady :
    Steady environment (fun _ => True) (deleteProduct productId) (fun _ _ => True) := by
  rw [deleteProduct_eq]
  refine Triple.bind (Q := fun _ (m : DBManager) => Going environment m ∧ True) ?_
    fun _ => fun _ hm => hm
  exact (execBound_steady (J := fun _ _ => True) fun gap db _ _ =>
    ⟨_, deleteProduct_effect.mpr rfl⟩).conseq (fun _ h => h) (fun _ _ h => ⟨h.1, trivial⟩)
      (fun _ _ h => h)

/-- A delete breaks no constraint, as its ingredients go with the recipe. -/
theorem deleteRecipe_steady :
    Steady environment (fun _ => True) (deleteRecipe recipeId) (fun _ _ => True) := by
  rw [deleteRecipe_eq]
  refine Triple.bind (Q := fun _ (m : DBManager) => Going environment m ∧ True) ?_
    fun _ => fun _ hm => hm
  exact (execBound_steady (J := fun _ _ => True) fun gap db _ _ =>
    ⟨_, deleteRecipe_effect.mpr rfl⟩).conseq (fun _ h => h) (fun _ _ h => ⟨h.1, trivial⟩)
      (fun _ _ h => h)

/-! ## Reads behind a create -/

theorem getProduct_steady :
    Steady environment (fun _ => True) (getProduct productId) (fun _ _ => True) := by
  rw [getProduct_eq]
  exact firstBound_steady.bind fun _ => Triple.pure fun _ h => h

theorem getRecipe_steady :
    Steady environment (fun _ => True) (getRecipe recipeId) (fun _ _ => True) := by
  rw [getRecipe_eq]
  exact queryBound_steady.bind fun _ => Triple.pure fun _ h => h

end

/-! ## Operations that return -/

/-- An operation that returns leaves no statement failed. -/
theorem Isolated.unfailed {α : Type} {U : List StatementId} {P : DBManager → Prop}
    {body : DbM α} {Q : α → DBManager → Prop} (h : Isolated U P body Q) :
    Triple (fun m => Unfailed m ∧ P m) body (fun _ m => Unfailed m) (fun _ _ => True) := by
  intro m hm
  rcases hrun : runOn body m with ⟨e | a, m'⟩
  · trivial
  · exact (h m m a m' ⟨rfl, rfl, rfl, rfl⟩ hm.1 hm.2 hrun).1

/-- **An operation that returns leaves no statement failed** where none was. -/
theorem Operation.run_unfailed (op : Operation) :
    Triple (fun m => Unfailed m ∧ Rests Store.Valid m) op.run
      (fun _ m => Unfailed m ∧ Rests Store.Valid m) (fun _ _ => True) := by
  intro m hm
  obtain ⟨hunfailed, hrest⟩ := hm
  rcases hrun : runOn op.run m with ⟨e | r, m'⟩
  · trivial
  · have hrests := (op.run_keeps (rests_kept (Store.closed_valid {}))
      op.admitted_all).of_ok hrest hrun
    have hcontained := (op.run_contained m.db.tables).unfailed.of_ok
      ⟨hunfailed, rfl, hrest.1.recipeIds⟩ hrun
    exact ⟨hcontained, hrests⟩

end RecipesCore.Db
