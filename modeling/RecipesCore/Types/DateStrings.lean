import Mathlib.Data.List.TakeWhile
import Mathlib.Data.Nat.Digits.Lemmas
import RecipesCore.Types.CivilDates
import RecipesCore.Types.Kitchen

/-!
# Dates through their texts

`toDateString` prints a year as wide as it is, at least four characters with its sign, and
`fromDateString` reads a sign and at most four digits. So a date comes back as long as its year has
at most four digits. Behind a longer year the `-` is missed; the failure goes unnoticed, and the
date reads as day `0`.
-/

namespace RecipesCore.Types

/-! ## Digits -/

/-- The number that digits spell. -/
def spelled (digits : List Char) : Nat :=
  digits.foldl (fun n c => 10 * n + (c.toNat - '0'.toNat)) 0

theorem spelled_append_singleton (digits : List Char) (c : Char) :
    spelled (digits ++ [c]) = 10 * spelled digits + (c.toNat - '0'.toNat) := by
  rw [spelled, List.foldl_append]
  rfl

theorem spelled_zeros (zeros : Nat) (digits : List Char) :
    spelled (List.replicate zeros '0' ++ digits) = spelled digits := by
  induction zeros with
  | zero => rfl
  | succ zeros ih =>
      rw [List.replicate_succ, List.cons_append]
      exact ih

theorem digitChar_isDigit {d : Nat} (h : d < 10) : (Nat.digitChar d).isDigit = true := by
  simpa [Nat.isDigit_digitChar] using h

theorem digitChar_value {d : Nat} (h : d < 10) : (Nat.digitChar d).toNat - '0'.toNat = d := by
  interval_cases d <;> rfl

theorem spelled_digits {digits : List Nat} (h : ∀ d ∈ digits, d < 10) :
    spelled (digits.reverse.map Nat.digitChar) = Nat.ofDigits 10 digits := by
  induction digits with
  | nil => rfl
  | cons d digits ih =>
      obtain ⟨hd, hdigits⟩ := List.forall_mem_cons.mp h
      rw [List.reverse_cons, List.map_append, List.map_singleton, spelled_append_singleton,
        digitChar_value hd, ih hdigits, Nat.ofDigits_cons, Nat.add_comm]

theorem spelled_decimal (n : Nat) : spelled (decimal n) = n := by
  unfold decimal
  split
  · next h => rw [h]; rfl
  · rw [spelled_digits fun d hd => Nat.digits_lt_base (by omega) hd, Nat.ofDigits_digits]

theorem decimal_isDigit (n : Nat) : ∀ c ∈ decimal n, c.isDigit = true := by
  unfold decimal
  split
  · simp
  · intro c hc
    obtain ⟨d, hd, rfl⟩ := List.mem_map.mp hc
    exact digitChar_isDigit (Nat.digits_lt_base (by omega) (List.mem_reverse.mp hd))

theorem decimal_ne_nil (n : Nat) : decimal n ≠ [] := by
  unfold decimal
  split
  · simp
  · next h => simpa [Nat.digits_ne_nil_iff_ne_zero] using h

theorem decimal_length_le {width n : Nat} (hwidth : 0 < width) :
    (decimal n).length ≤ width ↔ n < 10 ^ width := by
  unfold decimal
  split
  · next h =>
      rw [h]
      simpa [Nat.one_le_iff_ne_zero] using hwidth.ne'
  · rw [List.length_map, List.length_reverse, Nat.digits_length_le_iff (by omega)]

/-! ## Reading digits -/

section

variable {digits rest : List Char} {width : Nat}

/-- What does not go on with a digit. -/
def EndsNumber (rest : List Char) : Prop := ∀ c more, rest = c :: more → c.isDigit = false

/-- A number of at most `width` digits is read whole. -/
theorem readUnsigned_whole (hne : digits ≠ []) (hdigits : ∀ c ∈ digits, c.isDigit = true)
    (hwidth : digits.length ≤ width) (hrest : EndsNumber rest) :
    readUnsigned width (digits ++ rest) = some (spelled digits, rest) := by
  have htake : ((digits ++ rest).take width).takeWhile Char.isDigit = digits := by
    rw [List.take_append, List.take_of_length_le hwidth, List.takeWhile_append_of_pos hdigits]
    cases hr : rest with
    | nil => simp
    | cons c more =>
        cases hleft : width - digits.length with
        | zero => simp
        | succ n => simp [hrest c more hr]
  simp only [readUnsigned, htake, if_neg hne, List.drop_left]
  rfl

/-- Of a longer number only `width` digits are read. -/
theorem readUnsigned_part (rest : List Char) (hpos : 0 < width) (hdigits : ∀ c ∈ digits, c.isDigit = true)
    (hwidth : width < digits.length) : ∃ n,
      readUnsigned width (digits ++ rest) = some (n, digits.drop width ++ rest) := by
  have htake : ((digits ++ rest).take width).takeWhile Char.isDigit = digits.take width := by
    rw [List.take_append_of_le_length hwidth.le]
    exact List.takeWhile_eq_self_iff.mpr fun c hc => hdigits c (List.mem_of_mem_take hc)
  have hne : digits.take width ≠ [] := by
    intro h
    have hlength := congrArg List.length h
    rw [List.length_take, List.length_nil] at hlength
    omega
  refine ⟨spelled (digits.take width), ?_⟩
  simp only [readUnsigned, htake, if_neg hne, List.length_take, Nat.min_eq_left hwidth.le,
    List.drop_append_of_le_length hwidth.le]
  rfl

theorem readSigned_minus : readSigned width ('-' :: rest) =
    (readUnsigned width rest).map fun (n, rest) => (-(n : Int), rest) := rfl

theorem readSigned_digits (hne : digits ≠ []) (hdigits : ∀ c ∈ digits, c.isDigit = true) :
    readSigned width (digits ++ rest) =
      (readUnsigned width (digits ++ rest)).map fun (n, rest) => ((n : Int), rest) := by
  cases digits with
  | nil => exact absurd rfl hne
  | cons c digits =>
      have hc := hdigits c List.mem_cons_self
      rw [List.cons_append]
      unfold readSigned
      split
      · next h => cases h; cases hc
      · next h => cases h; cases hc
      · rfl
end

/-! ## Numbers as they are printed -/

theorem zeroPadded_nonneg (width : Nat) {n : Int} (h : 0 ≤ n) : zeroPadded width n =
    List.replicate (width - (decimal n.natAbs).length) '0' ++ decimal n.natAbs := by
  simp [zeroPadded, Int.not_lt.mpr h]

theorem zeroPadded_neg (width : Nat) {n : Int} (h : n < 0) : zeroPadded width n =
    '-' :: (List.replicate (width - 1 - (decimal n.natAbs).length) '0' ++ decimal n.natAbs) := by
  simp [zeroPadded, h]

section

variable {zeros n width : Nat} {rest : List Char}

theorem padded_ne_nil : List.replicate zeros '0' ++ decimal n ≠ [] := by
  simp [decimal_ne_nil]

theorem padded_isDigit : ∀ c ∈ List.replicate zeros '0' ++ decimal n, c.isDigit = true := by
  intro c hc
  rcases List.mem_append.mp hc with hc | hc
  · rw [List.eq_of_mem_replicate hc]
    rfl
  · exact decimal_isDigit n c hc

theorem readUnsigned_padded (h : zeros + (decimal n).length ≤ width) (hrest : EndsNumber rest) :
    readUnsigned width (List.replicate zeros '0' ++ decimal n ++ rest) = some (n, rest) := by
  rw [readUnsigned_whole padded_ne_nil padded_isDigit (by simpa using h) hrest, spelled_zeros,
    spelled_decimal]

/-- The reading of a longer number stops before a digit of it. -/
theorem readUnsigned_padded_part (rest : List Char) (hpos : 0 < width) (h : width < (decimal n).length) :
    ∃ k c more, readUnsigned width (List.replicate zeros '0' ++ decimal n ++ rest) =
      some (k, c :: more) ∧ c.isDigit = true := by
  have hlength : width < (List.replicate zeros '0' ++ decimal n).length := by
    rw [List.length_append]
    omega
  obtain ⟨k, hread⟩ := readUnsigned_part rest hpos padded_isDigit hlength
  cases hdrop : (List.replicate zeros '0' ++ decimal n).drop width with
  | nil =>
      have := List.drop_eq_nil_iff.mp hdrop
      omega
  | cons c more =>
      refine ⟨k, c, more ++ rest, by rw [hread, hdrop, List.cons_append], ?_⟩
      exact padded_isDigit c (List.mem_of_mem_drop (hdrop ▸ List.mem_cons_self))

theorem readUnsigned_zeroPadded (hpos : 0 < width) (h : n < 10 ^ width) (hrest : EndsNumber rest) :
    readUnsigned width (zeroPadded width n ++ rest) = some (n, rest) := by
  have hlength := (decimal_length_le hpos).mpr h
  rw [zeroPadded_nonneg width (Int.natCast_nonneg n), Int.natAbs_natCast]
  exact readUnsigned_padded (by omega) hrest

variable {year : Int}

/-- A number that needs no more digits than are read. -/
theorem readSigned_zeroPadded (hpos : 0 < width) (h : year.natAbs < 10 ^ width)
    (hrest : EndsNumber rest) :
    readSigned width (zeroPadded width year ++ rest) = some (year, rest) := by
  have hlength := (decimal_length_le hpos).mpr h
  rcases lt_or_ge year 0 with hyear | hyear
  · have habs : -(year.natAbs : Int) = year := by omega
    rw [zeroPadded_neg width hyear, List.cons_append, readSigned_minus,
      readUnsigned_padded (by omega) hrest]
    exact congrArg (fun n => some (n, rest)) habs
  · have habs : (year.natAbs : Int) = year := by omega
    rw [zeroPadded_nonneg width hyear, readSigned_digits padded_ne_nil padded_isDigit,
      readUnsigned_padded (by omega) hrest]
    exact congrArg (fun n => some (n, rest)) habs

/-- A number that needs more. -/
theorem readSigned_zeroPadded_part (rest : List Char) (hpos : 0 < width)
    (h : 10 ^ width ≤ year.natAbs) :
    ∃ k c more, readSigned width (zeroPadded width year ++ rest) = some (k, c :: more) ∧
      c.isDigit = true := by
  have hlength : width < (decimal year.natAbs).length := by
    have hle := (decimal_length_le (n := year.natAbs) hpos).not.mpr (by omega)
    omega
  rcases lt_or_ge year 0 with hyear | hyear
  · obtain ⟨k, c, more, hread, hc⟩ := readUnsigned_padded_part rest hpos hlength
    rw [zeroPadded_neg width hyear, List.cons_append, readSigned_minus, hread]
    exact ⟨_, c, more, rfl, hc⟩
  · obtain ⟨k, c, more, hread, hc⟩ := readUnsigned_padded_part rest hpos hlength
    rw [zeroPadded_nonneg width hyear, readSigned_digits padded_ne_nil padded_isDigit, hread]
    exact ⟨_, c, more, rfl, hc⟩

end

/-! ## Dates -/

theorem endsNumber_dash {rest : List Char} : EndsNumber ('-' :: rest) := by
  intro c more h
  cases h
  rfl

/-- The text of a date. -/
def dateText (ymd : YearMonthDay) : List Char :=
  zeroPadded 4 ymd.year ++ '-' :: zeroPadded 2 ymd.month ++ '-' :: zeroPadded 2 ymd.day

/-- **A text is read as the date it was printed from when the year has at most four digits, and not
at all otherwise.** -/
theorem parseDate_dateText {ymd : YearMonthDay} (hok : ymd.ok = true) :
    parseDate (dateText ymd) = if ymd.year.natAbs ≤ 9999 then some ymd.toSysDays else none := by
  obtain ⟨-, hmonth, -, hday⟩ := YearMonthDay.ok_iff.mp hok
  have hlast := (YearMonthDay.lastDay_le ymd.year ymd.month).1
  have htext : dateText ymd = zeroPadded 4 ymd.year ++ ('-' :: (zeroPadded 2 ymd.month ++
      ('-' :: (zeroPadded 2 ymd.day ++ [])))) := by
    simp [dateText]
  rw [htext, parseDate]
  split
  · next hyear =>
      rw [readSigned_zeroPadded (by omega) (by omega) endsNumber_dash]
      simp only [Option.bind_eq_bind, Option.bind_some, readChar, if_true]
      rw [readUnsigned_zeroPadded (by omega) (by omega) endsNumber_dash]
      simp only [Option.bind_some, if_true]
      rw [readUnsigned_zeroPadded (by omega) (by omega) (fun _ _ h => by cases h)]
      simp only [Option.bind_some, hok, if_true]
  · next hyear =>
      obtain ⟨k, c, more, hread, hc⟩ := @readSigned_zeroPadded_part 4 ymd.year
        ('-' :: (zeroPadded 2 ymd.month ++ ('-' :: (zeroPadded 2 ymd.day ++ [])))) (by omega)
        (by omega)
      have hdash : c ≠ '-' := by
        rintro rfl
        cases hc
      rw [hread]
      simp only [Option.bind_eq_bind, Option.bind_some, readChar, if_neg hdash, Option.bind_none]

/-- The days whose calendar year `std::chrono::year` can represent. -/
def Representable (date : SysDays) : Prop :=
  ∃ ymd : YearMonthDay, ymd.ok = true ∧ -32767 ≤ ymd.year ∧ ymd.year ≤ 32767 ∧
    ymd.toSysDays = date

/-- The year is between -9999 and 9999. -/
def FourDigitYear (date : SysDays) : Prop := (YearMonthDay.ofSysDays date).year.natAbs ≤ 9999

instance (date : SysDays) : Decidable (FourDigitYear date) := Nat.decLe _ _

/-- The date that is read where `date` was written. -/
def readBack (date : SysDays) : SysDays := fromDateString (toDateString date)

section

variable {date date' : SysDays}

theorem Representable.ofSysDays (h : Representable date) :
    (YearMonthDay.ofSysDays date).ok = true ∧ (YearMonthDay.ofSysDays date).toSysDays = date := by
  obtain ⟨ymd, hok, hlo, hhi, rfl⟩ := h
  have hyear : ymd.year.bmod (2 ^ 16) = ymd.year := Int.bmod_eq_of_le (by omega) (by omega)
  rw [YearMonthDay.ofSysDays_toSysDays hok, hyear]
  exact ⟨hok, rfl⟩

theorem readBack_eq (h : Representable date) :
    readBack date = if FourDigitYear date then date else 0 := by
  obtain ⟨hok, hback⟩ := h.ofSysDays
  have htext : (toDateString date).toList = dateText (YearMonthDay.ofSysDays date) :=
    String.toList_ofList
  rw [readBack, fromDateString, htext, parseDate_dateText hok, hback]
  by_cases hyear : FourDigitYear date
  · rw [if_pos hyear]
    exact congrArg (fun read : Option SysDays => read.getD 0) (if_pos hyear)
  · rw [if_neg hyear]
    exact congrArg (fun read : Option SysDays => read.getD 0) (if_neg hyear)

/-- **A date survives exactly when its year has at most four digits.** -/
theorem readBack_eq_self_iff (h : Representable date) :
    readBack date = date ↔ FourDigitYear date := by
  rw [readBack_eq h]
  constructor
  · intro hback
    by_contra hyear
    rw [if_neg hyear] at hback
    -- day 0 lies in 1970
    subst hback
    exact hyear (by decide)
  · intro hyear
    rw [if_pos hyear]

/-- **Two dates stay apart exactly when one of them survives and is not day 0.** -/
theorem readBack_ne_iff (h : Representable date) (h' : Representable date') (hne : date ≠ date') :
    readBack date ≠ readBack date' ↔
      (FourDigitYear date ∧ date ≠ 0) ∨ (FourDigitYear date' ∧ date' ≠ 0) := by
  rw [readBack_eq h, readBack_eq h']
  grind

end

/-! ### The dates of a product -/

/-- The dates that are read where `dates` were written. -/
def Dates.readBack (dates : Dates) : Dates :=
  { manufacture := dates.manufacture.map Types.readBack
    expiration := dates.expiration.map Types.readBack }

/-- Each date that is there satisfies `p`. -/
def Dates.Each (p : SysDays → Prop) (dates : Dates) : Prop :=
  (∀ date ∈ dates.manufacture, p date) ∧ ∀ date ∈ dates.expiration, p date

theorem map_readBack_eq_self_iff {date : Option SysDays} (h : ∀ d ∈ date, Representable d) :
    date.map readBack = date ↔ ∀ d ∈ date, FourDigitYear d := by
  cases date with
  | none => simp
  | some d =>
      have hd := readBack_eq_self_iff (h d rfl)
      simpa using hd

theorem Dates.readBack_eq_self_iff {dates : Dates} (h : dates.Each Representable) :
    dates.readBack = dates ↔ dates.Each FourDigitYear := by
  have hmanufacture := map_readBack_eq_self_iff h.1
  have hexpiration := map_readBack_eq_self_iff h.2
  obtain ⟨manufacture, expiration⟩ := dates
  simp only [Dates.readBack, Dates.mk.injEq, Dates.Each] at *
  rw [hmanufacture, hexpiration]

/-- The first day of the year 10000 reads as day 0. -/
example : readBack 2932897 = 0 := by decide +kernel

end RecipesCore.Types
