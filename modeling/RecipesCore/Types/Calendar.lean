import Mathlib.Data.Nat.Digits.Defs

/-!
# Calendar dates as the storage layer writes and reads them

`std::chrono::sys_days` is a count of days from 1970-01-01. `toDateString` prints it as
`YYYY-MM-DD` and `fromDateString` reads such a text back; the two are the conversions a product's
dates go through on their way into and out of a `DATE` column.
-/

namespace RecipesCore.Types

/-- `std::chrono::sys_days`: days since 1970-01-01. -/
abbrev SysDays := Int

/-- `std::chrono::year_month_day`. -/
structure YearMonthDay where
  year : Int
  month : Nat
  day : Nat
  deriving DecidableEq, Repr

namespace YearMonthDay

/-- The civil date of a day count. `std::chrono::year` holds a 16-bit number, so a year outside
its range wraps. -/
def ofSysDays (days : SysDays) : YearMonthDay :=
  let z := days + 719468
  let era := z.fdiv 146097
  let dayOfEra := (z.fmod 146097).toNat
  let yearOfEra :=
    (dayOfEra - dayOfEra / 1460 + dayOfEra / 36524 - dayOfEra / 146096) / 365
  let dayOfYear := dayOfEra - (365 * yearOfEra + yearOfEra / 4 - yearOfEra / 100)
  let shifted := (5 * dayOfYear + 2) / 153
  let month := if shifted < 10 then shifted + 3 else shifted - 9
  let year := yearOfEra + era * 400 + (if month ≤ 2 then 1 else 0)
  { year := year.bmod (2 ^ 16)
    month := month
    day := dayOfYear - (153 * shifted + 2) / 5 + 1 }

/-- The day count of a civil date. -/
def toSysDays (ymd : YearMonthDay) : SysDays :=
  let y := ymd.year - (if ymd.month ≤ 2 then 1 else 0)
  let era := y.fdiv 400
  let yearOfEra := y.fmod 400
  let shifted : Int := if ymd.month > 2 then ymd.month - 3 else ymd.month + 9
  let dayOfYear : Int := (153 * shifted + 2).fdiv 5 + ymd.day - 1
  let dayOfEra := yearOfEra * 365 + yearOfEra.fdiv 4 - yearOfEra.fdiv 100 + dayOfYear
  era * 146097 + dayOfEra - 719468

def isLeap (year : Int) : Bool := year % 4 = 0 && (year % 100 ≠ 0 || year % 400 = 0)

def lastDay (year : Int) (month : Nat) : Nat :=
  if month = 2 then (if isLeap year then 29 else 28)
  else if month = 4 || month = 6 || month = 9 || month = 11 then 30
  else 31

/-- `year_month_day::ok()`. -/
def ok (ymd : YearMonthDay) : Bool :=
  1 ≤ ymd.month && ymd.month ≤ 12 && 1 ≤ ymd.day && ymd.day ≤ lastDay ymd.year ymd.month

end YearMonthDay

/-! ## Printing -/

/-- The decimal digits of `n`, most significant first; `0` is one digit. -/
def decimal (n : Nat) : List Char :=
  if n = 0 then ['0'] else (Nat.digits 10 n).reverse.map Nat.digitChar

/-- `std::format("{:0<width>d}", n)`: zeros go between the sign and the digits. -/
def zeroPadded (width : Nat) (n : Int) : List Char :=
  let sign := if n < 0 then ['-'] else []
  let digits := decimal n.natAbs
  sign ++ List.replicate (width - sign.length - digits.length) '0' ++ digits

/-- `std::format("{:04d}-{:02d}-{:02d}", year, month, day)`. -/
def toDateString (date : SysDays) : String :=
  let ymd := YearMonthDay.ofSysDays date
  String.ofList (zeroPadded 4 ymd.year ++ '-' :: zeroPadded 2 ymd.month ++
    '-' :: zeroPadded 2 ymd.day)

/-! ## Reading -/

/-- Read an unsigned number of at least one and at most `width` digits. -/
def readUnsigned (width : Nat) (input : List Char) : Option (Nat × List Char) :=
  let digits := (input.take width).takeWhile Char.isDigit
  if digits = [] then none
  else some (digits.foldl (fun n c => 10 * n + (c.toNat - '0'.toNat)) 0, input.drop digits.length)

/-- Read an optional sign and then at most `width` digits. -/
def readSigned (width : Nat) : List Char → Option (Int × List Char)
  | '-' :: rest => (readUnsigned width rest).map fun (n, rest) => (-(n : Int), rest)
  | '+' :: rest => (readUnsigned width rest).map fun (n, rest) => ((n : Int), rest)
  | input => (readUnsigned width input).map fun (n, rest) => ((n : Int), rest)

/-- The literal character of a format string. -/
def readChar (c : Char) : List Char → Option (List Char)
  | [] => none
  | d :: rest => if d = c then some rest else none

/-- `std::chrono::from_stream(ss, "%Y-%m-%d", …)`: a mismatch, or fields that name no day, set
failbit. Text after the day is not looked at. -/
def parseDate (input : List Char) : Option SysDays := do
  let (year, input) ← readSigned 4 input
  let input ← readChar '-' input
  let (month, input) ← readUnsigned 2 input
  let input ← readChar '-' input
  let (day, _) ← readUnsigned 2 input
  let ymd : YearMonthDay := ⟨year, month, day⟩
  if ymd.ok then some ymd.toSysDays else none

/-- The stream's state is never asked for, so after a failure the default value stays: day `0`. -/
def fromDateString (dateStr : String) : SysDays :=
  (parseDate dateStr.toList).getD 0

example : fromDateString (toDateString 20455) = 20455 := by decide

end RecipesCore.Types
