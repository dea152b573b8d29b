import RecipesCore.Logic.Program
import RecipesCore.Types.SQL

/-!
# The connection and its prepared statements

The state a `DBManager` keeps between calls, and the few SQLiteCpp calls it makes on it. Each
prepared statement is long-lived: its bindings and the failure of its last step stay until the next
`reset`, and `Statement::reset` throws that failure although it does reset the statement.

SQLite may also fail for reasons of its own (I/O, locks, memory). The `environment` lists what
happens to the next steps: each either goes on, skipping some ids if it inserts, or fails. When the
list is used up every further step goes on.
-/

namespace RecipesCore.Db

open RecipesCore.Logic RecipesCore.Logic.Program
open RecipesCore.Sqlite
open RecipesCore.Types

/-- The statements that change tables. -/
inductive Write where
  | insertProduct
  | createProduct
  | updateProductById
  | deleteProductById
  | insertRecipeIfAbsent
  | createRecipe
  | deleteRecipeIngredientsByRecipeId
  | insertRecipeIngredient
  | updateRecipeNameById
  | deleteRecipeById
  deriving DecidableEq, Repr

/-- The `SELECT`s. -/
inductive Read where
  | selectAllProducts
  | selectProductById
  | selectRecipeIdByName
  | selectRecipeIngredientsByRecipeId
  | selectAllRecipesWithIngredients
  | selectRecipeByIdWithIngredients
  | selectCookableRecipesWithIngredients
  deriving DecidableEq, Repr

inductive StatementId where
  | write (w : Write)
  | read (r : Read)
  deriving DecidableEq, Repr

def Write.sql : Write → Bindings → Nat → Database → Except SqliteException Database
  | .insertProduct => PreparedStatements.kInsertProduct
  | .createProduct => PreparedStatements.kCreateProduct
  | .updateProductById => PreparedStatements.kUpdateProductById
  | .deleteProductById => PreparedStatements.kDeleteProductById
  | .insertRecipeIfAbsent => PreparedStatements.kInsertRecipeIfAbsent
  | .createRecipe => PreparedStatements.kCreateRecipe
  | .deleteRecipeIngredientsByRecipeId => PreparedStatements.kDeleteRecipeIngredientsByRecipeId
  | .insertRecipeIngredient => PreparedStatements.kInsertRecipeIngredient
  | .updateRecipeNameById => PreparedStatements.kUpdateRecipeNameById
  | .deleteRecipeById => PreparedStatements.kDeleteRecipeById

def Read.sql : Read → Bindings → Tables → List Row
  | .selectAllProducts => PreparedStatements.kSelectAllProducts
  | .selectProductById => PreparedStatements.kSelectProductById
  | .selectRecipeIdByName => PreparedStatements.kSelectRecipeIdByName
  | .selectRecipeIngredientsByRecipeId => PreparedStatements.kSelectRecipeIngredientsByRecipeId
  | .selectAllRecipesWithIngredients => PreparedStatements.kSelectAllRecipesWithIngredients
  | .selectRecipeByIdWithIngredients => PreparedStatements.kSelectRecipeByIdWithIngredients
  | .selectCookableRecipesWithIngredients =>
      PreparedStatements.kSelectCookableRecipesWithIngredients

/-- A prepared statement: its bound parameters, and the failure of its last step until `reset`. -/
structure Statement where
  bindings : Bindings := fun _ => .null
  failure : Option SqliteException := none

/-- What SQLite makes of one step. -/
inductive StepOutcome where
  | proceed (gap : Nat)
  | fail (exception : SqliteException)
  deriving DecidableEq, Repr

/-- What happens to the next step, and what is left for the later ones. -/
def nextOutcome : List StepOutcome → StepOutcome × List StepOutcome
  | [] => (.proceed 0, [])
  | outcome :: rest => (outcome, rest)

structure DBManager where
  db : Database := {}
  /-- What `ROLLBACK` restores, while a transaction is open. -/
  saved : Option (Tables × Sequences) := none
  statements : StatementId → Statement := fun _ => {}
  environment : List StepOutcome := []

/-- What a `DBManager` call throws; both are `std::exception`s. -/
inductive DbException where
  | sqlite (exception : SqliteException)
  | runtimeError (what : String)
  deriving DecidableEq, Repr

def DbException.what : DbException → String
  | .sqlite exception => exception.what
  | .runtimeError what => what

abbrev DbM := Prog DBManager DbException

namespace DBManager

/-- A manager opened on a database file: the schema is there, every statement is new. -/
def onTables (tables : Tables) (sequences : Sequences) : DBManager :=
  { db := { tables, sequences } }

def withEnvironment (environment : List StepOutcome) (m : DBManager) : DBManager :=
  { m with environment }

def setStatement (s : StatementId) (statement : Statement) (m : DBManager) : DBManager :=
  { m with statements := Function.update m.statements s statement }

def recordFailure (s : StatementId) (exception : SqliteException) (m : DBManager) : DBManager :=
  m.setStatement s { m.statements s with failure := some exception }

end DBManager

/-! ## `SQLite::Statement` -/

/-- `reset()`: the statement is reset in any case, and the failure of its last step is thrown. -/
def reset (s : StatementId) : DbM Unit := primitive fun m =>
  let cleared := m.setStatement s { m.statements s with failure := none }
  match (m.statements s).failure with
  | none => (.ok (), cleared)
  | some exception => (.error (.sqlite exception), cleared)

def clearBindings (s : StatementId) : DbM Unit :=
  modify fun m => m.setStatement s { m.statements s with bindings := fun _ => .null }

def bind (s : StatementId) (index : Nat) (value : Value) : DbM Unit :=
  modify fun m => m.setStatement s
    { m.statements s with bindings := Function.update (m.statements s).bindings index value }

/-- `sqlite3_step` as far as the SQL text does not matter: it may fail on its own. -/
def step (s : StatementId) : DbM Nat := primitive fun m =>
  match nextOutcome m.environment with
  | (.proceed gap, rest) => (.ok gap, { m with environment := rest })
  | (.fail exception, rest) =>
      (.error (.sqlite exception), { m with environment := rest }.recordFailure s exception)

/-- `exec()` of a writing statement. -/
def exec (w : Write) : DbM Unit := do
  let gap ← step (.write w)
  primitive fun m =>
    match w.sql (m.statements (.write w)).bindings gap m.db with
    | .ok db => (.ok (), { m with db })
    | .error exception =>
        (.error (.sqlite exception), m.recordFailure (.write w) exception)

/-- The rows a `SELECT` has to offer from now on. -/
def resultRows (r : Read) : DbM (List Row) := primitive fun m =>
  (.ok (r.sql (m.statements (.read r)).bindings m.db.tables), m)

/-- One `executeStep()` on a statement that was just reset: the first row, if there is one. -/
def executeStep (r : Read) : DbM (Option Row) := do
  let _ ← step (.read r)
  let rows ← resultRows r
  return rows.head?

/-- `while (statement.executeStep()) { … }`, with the loop body as a fold; the last step is the one
that finds no more rows. -/
def stepThrough {β : Type} (r : Read) (visit : β → Row → β) : β → List Row → DbM β
  | acc, [] => do
      let _ ← step (.read r)
      return acc
  | acc, row :: rest => do
      let _ ← step (.read r)
      stepThrough r visit (visit acc row) rest

def whileExecuteStep {β : Type} (r : Read) (visit : β → Row → β) (start : β) : DbM β := do
  let rows ← resultRows r
  stepThrough r visit start rows

/-! ## `SQLite::Database` and `SQLite::Transaction` -/

/-- A statement that is compiled, run and dropped: `BEGIN`, `COMMIT`. -/
def execDirect (f : DBManager → DBManager) : DbM Unit := primitive fun m =>
  match nextOutcome m.environment with
  | (.proceed _, rest) => (.ok (), f { m with environment := rest })
  | (.fail exception, rest) => (.error (.sqlite exception), { m with environment := rest })

def getLastInsertRowid : DbM Int := primitive fun m => (.ok m.db.lastInsertRowid, m)

def getChanges : DbM Nat := primitive fun m => (.ok m.db.changes, m)

def beginTransaction : DbM Unit :=
  execDirect fun m => { m with saved := some (m.db.tables, m.db.sequences) }

def commit : DbM Unit := execDirect fun m => { m with saved := none }

/-- The destructor of `Transaction`: `ROLLBACK`, unless it was committed. -/
def rollbackUnlessCommitted (m : DBManager) : DBManager :=
  match m.saved with
  | none => m
  | some (tables, sequences) => { m with db := { m.db with tables, sequences }, saved := none }

/-- `Transaction transaction(db_);` and the rest of its block. -/
def transaction {α : Type} (block : DbM α) : DbM α := do
  beginTransaction
  ensuring rollbackUnlessCommitted block

end RecipesCore.Db
