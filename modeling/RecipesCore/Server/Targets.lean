import RecipesCore.Server.Routing
import RecipesCore.Types.DateStrings

/-!
# Item targets

A target names an item when the prefix of the collection comes first and decimal digits that spell
a positive `int64_t` follow, to the end. `NamesItem` is that relation, and `ParseProductId` and
`ParseRecipeId` find an id in exactly the targets that name one: a sign, a number that does not fit
and a rest behind the digits are all refused.
-/

namespace RecipesCore.Net

open RecipesCore.Types

/-! ## `std::from_chars` -/

/-- The longest run of digits at the start of a text, with the number it spells. -/
theorem readDigits_eq_some_iff (sign : Int) {value : Int} {text rest : List Char} :
    (if text.takeWhile Char.isDigit = [] ∨
        sign * spelled (text.takeWhile Char.isDigit) < -2 ^ 63 ∨
        2 ^ 63 ≤ sign * spelled (text.takeWhile Char.isDigit) then none
      else some (sign * spelled (text.takeWhile Char.isDigit), text.dropWhile Char.isDigit)) =
        some (value, rest) ↔
    ∃ digits, text = digits ++ rest ∧ digits ≠ [] ∧ (∀ c ∈ digits, c.isDigit = true) ∧
      EndsNumber rest ∧ value = sign * spelled digits ∧ -2 ^ 63 ≤ value ∧ value < 2 ^ 63 := by
  constructor
  · intro h
    split at h
    · cases h
    · next hfits =>
        obtain ⟨hvalue, rfl⟩ := Prod.mk.inj (Option.some.inj h)
        obtain ⟨hne, hlow, hhigh⟩ := not_or.mp hfits |>.imp_right not_or.mp
        refine ⟨text.takeWhile Char.isDigit, List.takeWhile_append_dropWhile.symm, hne,
          fun c hc => List.mem_takeWhile_imp hc, ?_, hvalue.symm, ?_, ?_⟩
        · intro c more hrest
          have hstops := List.head?_dropWhile_not Char.isDigit text
          rw [hrest] at hstops
          simpa using hstops
        · rw [← hvalue]
          exact Int.not_lt.mp hlow
        · rw [← hvalue]
          exact Int.not_le.mp hhigh
  · intro h
    obtain ⟨digits, rfl, hne, hdigits, hrest, rfl, hlow, hhigh⟩ := h
    have htake : (digits ++ rest).takeWhile Char.isDigit = digits := by
      rw [List.takeWhile_append_of_pos hdigits]
      cases rest with
      | nil => simp
      | cons c more => simp [hrest c more rfl]
    have hdrop : (digits ++ rest).dropWhile Char.isDigit = rest := by
      rw [List.dropWhile_append_of_pos hdigits]
      cases rest with
      | nil => rfl
      | cons c more => exact List.dropWhile_cons_of_neg (by simp [hrest c more rfl])
    rw [htake, hdrop, if_neg]
    intro hfails
    obtain hempty | hbelow | habove := hfails
    · exact hne hempty
    · exact absurd hbelow (Int.not_lt.mpr hlow)
    · exact absurd habove (Int.not_le.mpr hhigh)

theorem fromChars_minus {more rest : List Char} {value : Int} :
    fromChars ('-' :: more) = some (value, rest) ↔ ∃ digits, more = digits ++ rest ∧ digits ≠ [] ∧
      (∀ c ∈ digits, c.isDigit = true) ∧ EndsNumber rest ∧ value = -spelled digits ∧
      -2 ^ 63 ≤ value ∧ value < 2 ^ 63 := by
  refine (readDigits_eq_some_iff (-1)).trans ?_
  simp only [Int.neg_one_mul]

theorem fromChars_plain {text rest : List Char} {value : Int}
    (hplain : ∀ more, text ≠ '-' :: more) :
    fromChars text = some (value, rest) ↔ ∃ digits, text = digits ++ rest ∧ digits ≠ [] ∧
      (∀ c ∈ digits, c.isDigit = true) ∧ EndsNumber rest ∧ value = spelled digits ∧
      -2 ^ 63 ≤ value ∧ value < 2 ^ 63 := by
  have hread : fromChars text = (if text.takeWhile Char.isDigit = [] ∨
      1 * (spelled (text.takeWhile Char.isDigit) : Int) < -2 ^ 63 ∨
      2 ^ 63 ≤ 1 * (spelled (text.takeWhile Char.isDigit) : Int) then none
    else some (1 * (spelled (text.takeWhile Char.isDigit) : Int),
      text.dropWhile Char.isDigit)) := by
    unfold fromChars
    split
    next sign more hsign =>
      split at hsign
      · exact absurd rfl (hplain _)
      · cases hsign
        rfl
  rw [hread, readDigits_eq_some_iff]
  simp only [Int.one_mul]

/-- No text of digits begins with the sign. -/
theorem digits_ne_minus {digits rest : List Char} (hne : digits ≠ [])
    (hdigits : ∀ c ∈ digits, c.isDigit = true) (more : List Char) :
    digits ++ rest ≠ '-' :: more := by
  intro heq
  cases digits with
  | nil => exact hne rfl
  | cons c digits =>
      have hc := hdigits c List.mem_cons_self
      rw [(List.cons.inj heq).1] at hc
      cases hc

/-- **`std::from_chars`** reads a minus sign, if there is one, and all digits that follow. -/
theorem fromChars_eq_some_iff {text rest : List Char} {value : Int} :
    fromChars text = some (value, rest) ↔ ∃ digits, digits ≠ [] ∧
      (∀ c ∈ digits, c.isDigit = true) ∧ EndsNumber rest ∧ -2 ^ 63 ≤ value ∧ value < 2 ^ 63 ∧
      (text = digits ++ rest ∧ value = spelled digits ∨
        text = '-' :: (digits ++ rest) ∧ value = -spelled digits) := by
  constructor
  · intro h
    by_cases hminus : ∃ more, text = '-' :: more
    · obtain ⟨more, rfl⟩ := hminus
      obtain ⟨digits, rfl, hne, hdigits, hrest, hvalue, hlow, hhigh⟩ := fromChars_minus.mp h
      exact ⟨digits, hne, hdigits, hrest, hlow, hhigh, Or.inr ⟨rfl, hvalue⟩⟩
    · obtain ⟨digits, htext, hne, hdigits, hrest, hvalue, hlow, hhigh⟩ :=
        (fromChars_plain (not_exists.mp hminus)).mp h
      exact ⟨digits, hne, hdigits, hrest, hlow, hhigh, Or.inl ⟨htext, hvalue⟩⟩
  · intro h
    obtain ⟨digits, hne, hdigits, hrest, hlow, hhigh, ⟨rfl, hvalue⟩ | ⟨rfl, hvalue⟩⟩ := h
    · apply (fromChars_plain (digits_ne_minus hne hdigits)).mpr
      exact ⟨digits, rfl, hne, hdigits, hrest, hvalue, hlow, hhigh⟩
    · apply fromChars_minus.mpr
      exact ⟨digits, rfl, hne, hdigits, hrest, hvalue, hlow, hhigh⟩

/-! ## Targets and ids -/

/-- The target is the prefix and, to the end, decimal digits that spell `id`, which is positive and
fits an `int64_t`. -/
def NamesItem (kPrefix target : String) (id : Int) : Prop :=
  ∃ digits, target.toList = kPrefix.toList ++ digits ∧ digits ≠ [] ∧
    (∀ c ∈ digits, c.isDigit = true) ∧ id = spelled digits ∧ 1 ≤ id ∧ id ≤ 2 ^ 63 - 1

section

variable {kPrefix target : String} {id : Int}

theorem parseId_eq_some_iff : parseId kPrefix target = some id ↔ NamesItem kPrefix target id := by
  unfold parseId NamesItem
  constructor
  · intro h
    split at h
    · cases h
    · next idText htarget =>
        split at h
        · next value hread =>
            split at h
            · cases h
            · next hpos =>
                cases h
                obtain ⟨digits, hne, hdigits, -, -, hhigh, ⟨rfl, hvalue⟩ | ⟨-, hvalue⟩⟩ :=
                  fromChars_eq_some_iff.mp hread
                -- behind a sign the number is not positive
                · refine ⟨digits, ?_, hne, hdigits, hvalue, by omega, by omega⟩
                  rw [isPrefixOf?_eq_some htarget, List.append_nil]
                · omega
        · cases h
  · intro h
    obtain ⟨digits, htarget, hne, hdigits, hid, hlow, hhigh⟩ := h
    have hread : fromChars digits = some (id, []) :=
      fromChars_eq_some_iff.mpr ⟨digits, hne, hdigits, nofun, by omega, by omega,
        Or.inl ⟨(List.append_nil digits).symm, hid⟩⟩
    rw [htarget, isPrefixOf?_append]
    simp only [hread]
    rw [if_neg (by omega)]

/-- The target with the literal in it names no recipe anyway. -/
theorem parseRecipeId_eq_parseId (target : String) :
    parseRecipeId target = parseId "/v1/recipes/" target := by
  unfold parseRecipeId
  split
  · next h =>
      rw [h]
      decide
  · rfl

/-- **The targets of items are parsed exactly**, for products and for recipes; the target that is
written for an id is read as that id, and no target names both a product and a recipe. -/
theorem item_targets_exact :
    (∀ target id, parseProductId target = some id ↔ NamesItem "/v1/products/" target id) ∧
    (∀ target id, parseRecipeId target = some id ↔ NamesItem "/v1/recipes/" target id) ∧
    (∀ id : Int, 1 ≤ id → id ≤ 2 ^ 63 - 1 →
      parseProductId ("/v1/products/" ++ toString id) = some id ∧
      parseRecipeId ("/v1/recipes/" ++ toString id) = some id) ∧
    ∀ target, parseProductId target = none ∨ parseRecipeId target = none := by
  refine ⟨fun _ _ => parseId_eq_some_iff, fun target id => ?_, fun id hlow hhigh => ?_,
    fun target => ?_⟩
  · rw [parseRecipeId_eq_parseId]
    exact parseId_eq_some_iff
  · rw [parseRecipeId_eq_parseId]
    exact ⟨parseId_toString (by omega) (by omega), parseId_toString (by omega) (by omega)⟩
  · cases hproduct : parseProductId target with
    | none => exact Or.inl rfl
    | some productId => exact Or.inr (parseRecipeId_of_product hproduct)

end

/-- The largest id, and what is refused around it. -/
theorem item_targets_exact_largest :
    parseProductId ("/v1/products/" ++ toString (2 ^ 63 - 1 : Int)) = some (2 ^ 63 - 1) ∧
      parseProductId "/v1/products/0042" = some 42 ∧
      parseProductId "/v1/products/9223372036854775808" = none ∧
      parseProductId "/v1/products/-1" = none ∧ parseProductId "/v1/products/1/" = none :=
  ⟨(item_targets_exact.2.2.1 (2 ^ 63 - 1) (by decide) (by decide)).1, by decide +kernel⟩

end RecipesCore.Net
