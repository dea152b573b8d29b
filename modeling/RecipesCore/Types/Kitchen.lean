import RecipesCore.Types.Calendar

/-!
# Products and recipes

The domain types every layer passes around. A `std::string` is a sequence of bytes; here it is the
`String` whose characters are those bytes, so that `String`'s own order is `memcmp`. An `int` is an
`Int32`. An `int64_t` row id is an `Int`: the program compares ids and never computes with them.
-/

namespace RecipesCore.Types

structure Dates where
  manufacture : Option SysDays := none
  expiration : Option SysDays := none
  deriving DecidableEq, Repr

/-- `enum class Dimension : uint8_t`. Every `uint8_t` is a value of it, and five are listed. -/
structure Dimension where
  /-- `static_cast<uint8_t>(dimension)`. -/
  number : UInt8
  deriving DecidableEq, Repr

namespace Dimension

@[match_pattern] def gramm : Dimension := ⟨0⟩

@[match_pattern] def kilogramm : Dimension := ⟨1⟩

@[match_pattern] def milliliter : Dimension := ⟨2⟩

@[match_pattern] def liter : Dimension := ⟨3⟩

@[match_pattern] def piece : Dimension := ⟨4⟩

/-- The values that the enumeration lists. -/
def enumerators : List Dimension := [gramm, kilogramm, milliliter, liter, piece]

/-- The value has a name. -/
def IsDeclared (d : Dimension) : Prop := d ∈ enumerators

instance (d : Dimension) : Decidable d.IsDeclared :=
  inferInstanceAs (Decidable (d ∈ enumerators))

/-- The number as SQLite stores it. -/
def code (d : Dimension) : Int := d.number.toNat

/-- `static_cast<Dimension>(code)` of an `int`, of which the low eight bits stay. -/
def ofCode (code : Int) : Dimension := ⟨UInt8.ofInt code⟩

theorem code_nonneg (d : Dimension) : 0 ≤ d.code := Int.natCast_nonneg _

theorem code_lt (d : Dimension) : d.code < 256 := Int.ofNat_lt.mpr d.number.toNat_lt

@[simp] theorem ofCode_code (d : Dimension) : ofCode d.code = d := by
  show Dimension.mk (UInt8.ofNat ((d.number.toNat : Int) % 2 ^ 8).toNat) = d
  have hnat : ((d.number.toNat : Int) % 2 ^ 8).toNat = d.number.toNat := by
    have hlt := d.number.toNat_lt
    omega
  rw [hnat, UInt8.ofNat_toNat]

/-- A `uint8_t` fits an `int`. -/
@[simp] theorem toInt_ofInt_code (d : Dimension) : (Int32.ofInt d.code).toInt = d.code := by
  have hnonneg := d.code_nonneg
  have hlt := d.code_lt
  exact Int32.toInt_ofInt_of_le (by omega) (by omega)

/-- What is stored as an `INTEGER` reads as the value that was written. -/
theorem ofCode_stored (d : Dimension) : ofCode (Int32.ofInt d.code).toInt = d := by
  rw [toInt_ofInt_code, ofCode_code]

/-- The unit names of the interface. -/
def getDimensionInString : Dimension → String
  | gramm => "gr"
  | kilogramm => "kg"
  | milliliter => "ml"
  | liter => "l"
  | piece => "pc"
  | _ => ""

end Dimension

structure Product where
  name : String
  amount : Int32
  dimension : Dimension
  dates : Dates := {}
  id : Option Int := none
  deriving DecidableEq, Repr

structure Recipe where
  name : String
  ingredients : List Product := []
  id : Option Int := none
  deriving DecidableEq, Repr

def Recipe.addIngredient (recipe : Recipe) (ingredient : Product) : Recipe :=
  { recipe with ingredients := recipe.ingredients ++ [ingredient] }

inductive RecipeSelection where
  | all
  | cookable
  deriving DecidableEq, Repr

end RecipesCore.Types
