import RecipesCore.Db.Calm

/-!
# What the exceptions say

The text of an exception comes from a constraint, from SQLite itself, or from an earlier failure that
a statement still holds. If all of these texts have a property `P`, every text that is thrown has it
(`Speaks`), and every exception is one of SQLite's.
-/

namespace RecipesCore.Db

open RecipesCore.Logic RecipesCore.Logic.Program
open RecipesCore.Sqlite
open RecipesCore.Types
open RecipesCore.Types.PreparedStatements
open DBManager

/-! ## Constraints -/

/-- What a statement raises of its own. -/
def constraintErrors : List SqliteException :=
  [sequenceFull, foreignKeyFailed, checkFailed "amount_base >= 0",
    checkFailed "required_amount_base >= 0", notNullFailed "products.name",
    notNullFailed "recipes.name", notNullFailed "recipe_ingredients.product_name",
    uniqueFailed "products.name, products.dimension", uniqueFailed "recipes.name"]

/-- The result is no error but one of these. -/
def Constrained {α : Type} (x : Except SqliteException α) : Prop :=
  ∀ exception, x = .error exception → exception ∈ constraintErrors

namespace Constrained

variable {α β : Type} {x y : Except SqliteException α}

theorem ok {a : α} : Constrained (.ok a) := nofun

theorem error {exception : SqliteException} (h : exception ∈ constraintErrors) :
    Constrained (.error exception : Except SqliteException α) := by
  intro e he
  cases he
  exact h

/-- Either of two parts may raise the error. -/
theorem bind {f : α → Except SqliteException β} (h : Constrained x)
    (hf : ∀ a, Constrained (f a)) : Constrained (x >>= f) := by
  intro e he
  cases x with
  | error exception =>
      cases he
      exact h _ rfl
  | ok a => exact hf a e he

theorem ite {c : Prop} [Decidable c] (hx : Constrained x) (hy : Constrained y) :
    Constrained (if c then x else y) := by
  split
  · exact hx
  · exact hy

/-- That the ids have run out is an error of its own. -/
theorem nextId {last : Int} {gap : Nat} : Constrained (nextId last gap) :=
  ite ok (error (by decide))

end Constrained

/-- **A statement raises constraint errors only.** -/
theorem sql_constrained (w : Write) (bindings : Bindings) (gap : Nat) (db : Database) :
    Constrained (w.sql bindings gap db) := by
  cases w with
  | insertProduct =>
      apply Constrained.nextId.bind
      intro id
      split
      · exact .error (by decide)
      · exact .ite (.error (by decide)) .ok
  | createProduct =>
      apply Constrained.nextId.bind
      intro id
      split
      · exact .error (by decide)
      · exact .ite (.error (by decide)) (.ite (.error (by decide)) .ok)
  | updateProductById =>
      apply Constrained.ite _ .ok
      split
      · exact .error (by decide)
      · exact .ite (.error (by decide)) (.ite (.error (by decide)) .ok)
  | deleteProductById => exact .ok
  | insertRecipeIfAbsent =>
      apply Constrained.nextId.bind
      intro id
      split
      · exact .ite .ok .ok
      · exact .ok
  | createRecipe =>
      apply Constrained.nextId.bind
      intro id
      split
      · exact .ite (.error (by decide)) .ok
      · exact .error (by decide)
  | deleteRecipeIngredientsByRecipeId => exact .ok
  | insertRecipeIngredient =>
      show Constrained (kInsertRecipeIngredient bindings gap db)
      unfold kInsertRecipeIngredient
      dsimp only
      split
      · exact .error (by decide)
      · exact .ite (.error (by decide)) (.ite .ok (.ite .ok (.error (by decide))))
  | updateRecipeNameById =>
      apply Constrained.ite _ .ok
      split
      · exact .ite (.error (by decide)) .ok
      · exact .error (by decide)
  | deleteRecipeById => exact .ok

/-! ## Texts -/

/-- What SQLite is going to say, and what the statements still hold, has the property. -/
structure Saying (P : String → Prop) (m : DBManager) : Prop where
  ahead : ∀ exception, .fail exception ∈ m.environment → P exception.what
  held : ∀ s exception, m.failureOf s = some exception → P exception.what

/-- One of SQLite's exceptions, with such a text. -/
def Thrown (P : String → Prop) (e : DbException) : Prop :=
  ∃ exception, e = .sqlite exception ∧ P exception.what

/-- What `body` throws has the property, and it leaves no other text behind. -/
abbrev Speaks {α : Type} (P : String → Prop) (body : DbM α) : Prop :=
  Triple (Saying P) body (fun _ => Saying P) (fun e m => Saying P m ∧ Thrown P e)

namespace Speaks

variable {P : String → Prop} {α β : Type} {body : DbM α}

theorem pure {a : α} : Speaks P (Pure.pure a : DbM α) := Triple.pure fun _ hm => hm

/-- Parts in a row may throw what either of them throws. -/
theorem bind {k : α → DbM β} (h : Speaks P body) (hk : ∀ a, Speaks P (k a)) : Speaks P (body >>= k) :=
  Triple.bind h hk

theorem forM {xs : List α} {loop : α → DbM PUnit} (h : ∀ a, Speaks P (loop a)) :
    Speaks P (xs.forM loop) := Triple.forM fun a _ => h a

/-- In particular nothing else is left behind in a statement. -/
theorem keeps (h : Speaks P body) : Keeps (Saying P) body :=
  h.conseq (fun _ hm => hm) (fun _ _ hm => hm) fun _ _ hm => hm.1

end Speaks

section

variable {P : String → Prop} {m : DBManager} {s : StatementId} {values : List Value}

/-- A statement may be set to a failure whose text has the property. -/
theorem Saying.setStatement (h : Saying P m) {st : Statement}
    (hst : ∀ exception, st.failure = some exception → P exception.what) :
    Saying P (m.setStatement s st) where
  ahead := h.ahead
  held s' exception hfailure := by
    rw [failureOf_setStatement] at hfailure
    split at hfailure
    · exact hst exception hfailure
    · exact h.held s' exception hfailure

/-- A failure may be recorded when its text has the property. -/
theorem Saying.recordFailure (h : Saying P m) {exception : SqliteException}
    (htext : P exception.what) : Saying P (m.recordFailure s exception) := by
  apply h.setStatement
  intro e he
  cases he
  exact htext

/-- With the next step gone, the texts ahead are fewer, and it fails with one of them. -/
theorem Saying.nextOutcome (h : Saying P m) {outcome : StepOutcome} {rest : List StepOutcome}
    (hnext : Db.nextOutcome m.environment = (outcome, rest)) :
    Saying P { m with environment := rest } ∧
      ∀ exception, outcome = .fail exception → P exception.what := by
  cases henv : m.environment with
  | nil =>
      rw [henv] at hnext
      cases hnext
      exact ⟨⟨nofun, h.held⟩, nofun⟩
  | cons first others =>
      rw [henv] at hnext
      cases hnext
      refine ⟨⟨fun exception hmem => h.ahead exception ?_, h.held⟩, fun exception heq =>
        h.ahead exception ?_⟩
      · rw [henv]
        exact List.mem_cons_of_mem _ hmem
      · rw [henv, heq]
        exact List.mem_cons_self

/-- A statement that was left failed throws what it holds. -/
theorem prepare_speaks : Speaks P (prepare s values) := by
  intro m hm
  rw [runOn_prepare]
  cases hfailure : m.failureOf s with
  | none => exact hm.setStatement nofun
  | some exception => exact ⟨hm.setStatement nofun, exception, rfl, hm.held s exception hfailure⟩

/-- A step throws what SQLite says, and the statement holds it then. -/
theorem step_speaks : Speaks P (step s) := by
  intro m hm
  rcases nextOutcome_cases m.environment with ⟨gap, rest, hnext⟩ | ⟨exception, rest, hnext⟩
  · rw [runOn_step hnext]
    exact (hm.nextOutcome hnext).1
  · obtain ⟨hrest, htext⟩ := hm.nextOutcome hnext
    rw [runOn_step_fail hnext]
    exact ⟨hrest.recordFailure (htext exception rfl), exception, rfl, htext exception rfl⟩

/-- `BEGIN` and `COMMIT` throw what SQLite says. -/
theorem execDirect_speaks {f : DBManager → DBManager} (hf : ∀ m, Saying P m → Saying P (f m)) :
    Speaks P (execDirect f) := by
  intro m hm
  rcases nextOutcome_cases m.environment with ⟨gap, rest, hnext⟩ | ⟨exception, rest, hnext⟩
  · simpa only [execDirect, runOn_primitive, hnext] using hf _ (hm.nextOutcome hnext).1
  · obtain ⟨hrest, htext⟩ := hm.nextOutcome hnext
    simpa only [execDirect, runOn_primitive, hnext] using
      ⟨hrest, exception, rfl, htext exception rfl⟩

/-- What only looks at the data says nothing. -/
theorem look_speaks {α : Type} {f : Database → α} :
    Speaks P (primitive fun m => (.ok (f m.db), m) : DbM α) := fun _ hm => hm

theorem resultRows_speaks {r : Read} : Speaks P (resultRows r) := fun _ hm => hm

/-- A `SELECT` of one row meets no constraint. -/
theorem firstBound_speaks {r : Read} : Speaks P (firstBound r values) :=
  prepare_speaks.bind fun _ => step_speaks.bind fun _ => resultRows_speaks.bind fun _ => Speaks.pure

/-- There is a step for every row, and one for the end. -/
theorem stepThrough_speaks {β : Type} {r : Read} (visit : β → Row → β) (rows : List Row) :
    ∀ acc : β, Speaks P (stepThrough r visit acc rows) := by
  induction rows with
  | nil => exact fun acc => step_speaks.bind fun _ => Speaks.pure
  | cons row rest ih => exact fun acc => step_speaks.bind fun _ => ih (visit acc row)

/-- Nor does a `SELECT` of many rows. -/
theorem queryBound_speaks {β : Type} {r : Read} {visit : β → Row → β} {start : β} :
    Speaks P (queryBound r values visit start) :=
  prepare_speaks.bind fun _ => resultRows_speaks.bind fun rows => stepThrough_speaks visit rows start

theorem commit_speaks : Speaks P commit := execDirect_speaks fun _ hm => ⟨hm.ahead, hm.held⟩

theorem beginTransaction_speaks : Speaks P beginTransaction :=
  execDirect_speaks fun _ hm => ⟨hm.ahead, hm.held⟩

/-- A rollback leaves the statements, and what they hold, alone. -/
theorem Saying.rollback (h : Saying P m) : Saying P (rollbackUnlessCommitted m) := by
  unfold rollbackUnlessCommitted
  split
  · exact h
  · exact ⟨h.ahead, h.held⟩

/-- A transaction throws what its block throws, or what SQLite says to `BEGIN`. -/
theorem transaction_speaks {α : Type} {block : DbM α} (h : Speaks P block) :
    Speaks P (transaction block) := by
  apply beginTransaction_speaks.bind
  intro _
  exact Triple.ensuring (h.conseq (fun _ hm => hm) (fun _ _ hm => hm.rollback)
    (fun _ _ hm => ⟨hm.1.rollback, hm.2⟩))

variable (hP : ∀ exception ∈ constraintErrors, P exception.what)

include hP

/-- A writing statement throws what SQLite says, or what a constraint does. -/
theorem execBound_speaks {w : Write} : Speaks P (execBound w values) := by
  apply prepare_speaks.bind
  intro _
  apply step_speaks.bind
  intro gap m hm
  rw [runOn_primitive]
  cases hsql : w.sql (m.statements (.write w)).bindings gap m.db with
  | ok db => exact ⟨hm.ahead, hm.held⟩
  | error exception =>
      have htext := hP exception (sql_constrained w _ gap m.db exception hsql)
      exact ⟨hm.recordFailure htext, exception, rfl, htext⟩

/-- **No call leaves another text behind.** -/
theorem saying_kept : KeptByTransactions {} (Saying P) (Saying P) := by
  have hcalls : KeptByCalls {} (Saying P) :=
    { exec := fun _ => (execBound_speaks hP).keeps
      first := firstBound_speaks.keeps
      query := queryBound_speaks.keeps }
  refine { inner := hcalls, outer := hcalls, commit := commit_speaks.keeps, transaction := ?_ }
  intro α block hblock
  apply beginTransaction_speaks.keeps.bind
  intro _
  exact Triple.ensuring (hblock.conseq (fun _ hm => hm) (fun _ _ hm => hm.rollback)
    (fun _ _ hm => hm.rollback))

/-! ## Operations -/

variable {recipe : Recipe} {product : Product} {recipeId productId : Int}

/-- Each ingredient may meet a constraint. -/
theorem replaceRecipeIngredients_speaks : Speaks P (replaceRecipeIngredients recipeId recipe) := by
  rw [replaceRecipeIngredients_eq]
  apply (execBound_speaks hP).bind
  intro _
  apply Speaks.forM
  intro ingredient
  rw [insertIngredient_eq]
  exact execBound_speaks hP

/-- **What the creates throw** is a text of SQLite or of a constraint. -/
theorem createProduct_speaks : Speaks P (createProduct product) := by
  rw [createProduct_eq]
  exact (execBound_speaks hP).bind fun _ => look_speaks

theorem createRecipe_speaks : Speaks P (createRecipe recipe) := by
  rw [createRecipe_eq]
  apply transaction_speaks
  apply (execBound_speaks hP).bind
  intro _
  apply look_speaks.bind
  intro recipeId
  apply (replaceRecipeIngredients_speaks hP).bind
  intro _
  exact commit_speaks.bind fun _ => Speaks.pure

end

section

variable {P : String → Prop} {productId recipeId : Int}

/-- The reads behind the creates throw what SQLite says, or what their statement holds. -/
theorem getProduct_speaks : Speaks P (getProduct productId) := by
  rw [getProduct_eq]
  exact firstBound_speaks.bind fun _ => Speaks.pure

theorem getRecipe_speaks : Speaks P (getRecipe recipeId) := by
  rw [getRecipe_eq]
  exact queryBound_speaks.bind fun _ => Speaks.pure

end

end RecipesCore.Db
