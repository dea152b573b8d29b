import Mathlib.Logic.Function.Basic

/-!
# SQLite values, truth values and errors

What a column holds, what a `?` parameter is bound to, and SQL's three-valued logic: a comparison
with NULL is neither true nor false, and `WHERE` keeps a row only when its condition is true.
-/

namespace RecipesCore.Sqlite

/-- The storage classes this schema uses. -/
inductive Value where
  | null
  | integer (n : Int)
  | text (s : String)
  deriving DecidableEq, Repr

/-- The row a `SELECT` returns, one value per column of its list. -/
abbrev Row := List Value

/-- The parameters of a prepared statement, numbered from `1`; unbound ones are NULL. -/
abbrev Bindings := Nat → Value

namespace Value

def isNull : Value → Bool
  | .null => true
  | _ => false

/-- `Column::getInt64`; the integer columns of the schema hold integers or NULL. -/
def getInt64 : Value → Int
  | .integer n => n
  | _ => 0

/-- `Column::getInt`: the low 32 bits. -/
def getInt (v : Value) : Int32 := Int32.ofInt v.getInt64

def getString : Value → String
  | .text s => s
  | .integer n => toString n
  | .null => ""

/-- A nullable column, and the value it is stored from. -/
def ofNullable {α : Type} (inject : α → Value) : Option α → Value
  | none => .null
  | some a => inject a

def nullableText : Value → Option String
  | .null => none
  | v => some v.getString

/-- An integer column is read as the integer that it holds. -/
@[simp] theorem getInt64_integer (n : Int) : (integer n).getInt64 = n := rfl
@[simp] theorem getString_text (s : String) : (text s).getString = s := rfl
@[simp] theorem isNull_null : null.isNull = true := rfl

/-- An integer is a value, `0` too. -/
@[simp] theorem isNull_integer (n : Int) : (integer n).isNull = false := rfl

/-- Without a value the column is NULL. -/
@[simp] theorem ofNullable_none {α : Type} (f : α → Value) : ofNullable f none = .null := rfl
@[simp] theorem ofNullable_some {α : Type} (f : α → Value) (a : α) :
    ofNullable f (some a) = f a := rfl

/-- A 32-bit integer comes back from the 64 bits it is stored in. -/
@[simp] theorem getInt_integer_toInt (n : Int32) : (integer n.toInt).getInt = n := by
  simp [getInt]

end Value

/-! ## Three-valued logic -/

/-- `none` is SQL's NULL, "unknown". -/
abbrev Truth := Option Bool

namespace Truth

def and : Truth → Truth → Truth
  | some false, _ => some false
  | _, some false => some false
  | some true, some true => some true
  | _, _ => none

def or : Truth → Truth → Truth
  | some true, _ => some true
  | _, some true => some true
  | some false, some false => some false
  | _, _ => none

/-- What `WHERE` and `ON` ask of a condition. -/
def holds : Truth → Bool
  | some true => true
  | _ => false

/-- A condition that is known holds when it is true. -/
@[simp] theorem holds_some (b : Bool) : holds (some b) = b := by cases b <;> rfl

/-- A condition that is unknown does not hold. -/
@[simp] theorem holds_none : holds none = false := rfl

/-- For `WHERE` an unknown side of `AND` may as well be false. -/
theorem holds_and (s t : Truth) : (s.and t).holds = (s.holds && t.holds) := by
  rcases s with _ | _ | _ <;> rcases t with _ | _ | _ <;> rfl

/-- So may an unknown side of `OR`. -/
theorem holds_or (s t : Truth) : (s.or t).holds = (s.holds || t.holds) := by
  rcases s with _ | _ | _ <;> rcases t with _ | _ | _ <;> rfl

end Truth

/-- `v = w`. -/
def Value.eq : Value → Value → Truth
  | .null, _ => none
  | _, .null => none
  | v, w => some (decide (v = w))

/-- `v < w` on integers; NULL on either side makes it unknown. -/
def Value.lt : Value → Value → Truth
  | .integer m, .integer n => some (decide (m < n))
  | _, _ => none

/-- `=` compares two integers, neither of which is NULL. -/
@[simp] theorem Value.eq_integer (m n : Int) :
    (Value.eq (.integer m) (.integer n)).holds = decide (m = n) := by
  by_cases h : m = n <;> simp [Value.eq, Truth.holds, h]

/-- `=` compares two texts, upper and lower case apart. -/
@[simp] theorem Value.eq_text (s t : String) :
    (Value.eq (.text s) (.text t)).holds = decide (s = t) := by
  by_cases h : s = t <;> simp [Value.eq, Truth.holds, h]

/-- `<` is known on integers. -/
@[simp] theorem Value.lt_integer (m n : Int) :
    Value.lt (.integer m) (.integer n) = some (decide (m < n)) := rfl

/-- Whether NULL is less than anything is unknown. -/
@[simp] theorem Value.lt_null (v : Value) : Value.lt .null v = none := rfl

/-! ## Errors -/

inductive ResultCode where
  | constraintNotNull
  | constraintCheck
  | constraintUnique
  | constraintForeignKey
  | full
  /-- Any other code: I/O, lock, memory, … -/
  | other (code : Nat)
  deriving DecidableEq, Repr

/-- `SQLite::Exception`. -/
structure SqliteException where
  code : ResultCode
  what : String
  deriving DecidableEq, Repr

end RecipesCore.Sqlite
