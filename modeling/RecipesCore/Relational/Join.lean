import Mathlib.Data.List.Perm.Basic
import RecipesCore.Relational.OrderBy

/-!
# `LEFT JOIN`

`leftJoin on left right` pairs every left row with its matching right rows, and with `none` (the
NULL row) when it has none. The rows that one left row contributes form its `block`.

The main fact is `orderBy_leftJoin`: sorting the join by a left key first and a right key second is
the same as sorting the two sides on their own and joining them. So all rows of one left row come
out next to each other, which is what a reader that regroups the flat rows relies on.
-/

namespace RecipesCore.Relational

variable {α β κ₁ κ₂ : Type*}

/-- The joined rows of one left row. -/
def block (on : α → β → Bool) (right : List β) (a : α) : List (α × Option β) :=
  match right.filter (on a) with
  | [] => [(a, none)]
  | matched => matched.map fun b => (a, some b)

def leftJoin (on : α → β → Bool) (left : List α) (right : List β) : List (α × Option β) :=
  left.flatMap (block on right)

/-! ## Membership -/

variable {on : α → β → Bool} {left : List α} {right : List β} {a : α}

theorem mem_block {x : α × Option β} :
    x ∈ block on right a ↔ x.1 = a ∧
      match x.2 with
      | none => ∀ b ∈ right, on a b = false
      | some b => b ∈ right ∧ on a b = true := by
  obtain ⟨c, ob⟩ := x
  cases hm : right.filter (on a) with
  | nil =>
      have hno : ∀ b ∈ right, on a b = false := by simpa [List.filter_eq_nil_iff] using hm
      simp only [block, hm, List.mem_singleton, Prod.mk.injEq]
      cases ob with
      | none => simpa using fun _ => hno
      | some b =>
          simp only [reduceCtorEq, and_false, false_iff, not_and]
          rintro - hb
          simp [hno b hb]
  | cons m ms =>
      have hblock : block on right a = (right.filter (on a)).map fun b => (a, some b) := by
        simp only [block, hm]
      rw [hblock, List.mem_map]
      cases ob with
      | none =>
          have hmem : m ∈ right.filter (on a) := by simp [hm]
          obtain ⟨hr, hon⟩ := List.mem_filter.mp hmem
          simp only [Prod.mk.injEq, reduceCtorEq, and_false, exists_false, false_iff, not_and]
          rintro - hno
          simp [hno m hr] at hon
      | some b =>
          simp only [Prod.mk.injEq, Option.some.injEq, List.mem_filter]
          constructor
          · rintro ⟨b', ⟨hr, hon⟩, rfl, rfl⟩
            exact ⟨rfl, hr, hon⟩
          · rintro ⟨rfl, hr, hon⟩
            exact ⟨b, ⟨hr, hon⟩, rfl, rfl⟩

theorem fst_of_mem_block {x : α × Option β} (hx : x ∈ block on right a) : x.1 = a :=
  (mem_block.mp hx).1

theorem mem_leftJoin {x : α × Option β} :
    x ∈ leftJoin on left right ↔ x.1 ∈ left ∧ x ∈ block on right x.1 := by
  simp only [leftJoin, List.mem_flatMap]
  constructor
  · rintro ⟨a, ha, hx⟩
    have h1 := fst_of_mem_block hx
    rw [h1]
    exact ⟨ha, hx⟩
  · rintro ⟨ha, hx⟩
    exact ⟨x.1, ha, hx⟩

/-- Every left row has a joined row. -/
theorem exists_mem_leftJoin (ha : a ∈ left) : ∃ o, (a, o) ∈ leftJoin on left right := by
  by_cases hex : ∃ b ∈ right, on a b = true
  · obtain ⟨b, hb⟩ := hex
    exact ⟨some b, mem_leftJoin.mpr ⟨ha, mem_block.mpr ⟨rfl, hb⟩⟩⟩
  · refine ⟨none, mem_leftJoin.mpr ⟨ha, mem_block.mpr ⟨rfl, fun b hb => ?_⟩⟩⟩
    exact Bool.eq_false_iff.mpr fun hon => hex ⟨b, hb, hon⟩

/-- A condition on the left row may be tested before or after the join. -/
theorem filter_leftJoin (p : α → Bool) :
    (leftJoin on left right).filter (fun x => p x.1) = leftJoin on (left.filter p) right := by
  induction left with
  | nil => rfl
  | cons a left ih =>
      have hblock : (block on right a).filter (fun x => p x.1)
          = if p a then block on right a else [] := by
        split
        · next hpa =>
            refine List.filter_eq_self.mpr fun x hx => ?_
            rw [fst_of_mem_block hx]
            exact hpa
        · next hpa =>
            refine List.filter_eq_nil_iff.mpr fun x hx => ?_
            rw [fst_of_mem_block hx]
            exact hpa
      simp only [leftJoin, List.flatMap_cons, List.filter_append] at ih ⊢
      rw [hblock, ih]
      by_cases hpa : p a <;> simp [hpa]

/-! ## The sorted join -/

section Sorted

variable [LinearOrder κ₁] [LinearOrder κ₂] {key₁ : α → κ₁} {key₂ : Option β → κ₂}

/-- The sort key of a joined row: the left row's key, then the (nullable) right row's. -/
def joinKey (key₁ : α → κ₁) (key₂ : Option β → κ₂) (x : α × Option β) : κ₁ ×ₗ κ₂ :=
  toLex (key₁ x.1, key₂ x.2)

theorem block_perm {right' : List β} (h : right'.Perm right) :
    (block on right' a).Perm (block on right a) := by
  have hf : (right'.filter (on a)).Perm (right.filter (on a)) := h.filter _
  unfold block
  cases h' : right'.filter (on a) with
  | nil =>
      rw [h'] at hf
      rw [hf.nil_eq.symm]
  | cons m ms =>
      cases hr : right.filter (on a) with
      | nil =>
          rw [h', hr] at hf
          exact absurd hf.eq_nil (List.cons_ne_nil m ms)
      | cons n ns =>
          rw [h', hr] at hf
          exact hf.map _

/-- Inside one block the rows follow the right key. -/
theorem block_pairwise :
    (block on (orderBy (fun b => key₂ (some b)) right) a).Pairwise
      (fun x y => joinKey key₁ key₂ x ≤ joinKey key₁ key₂ y) := by
  have hs := orderBy_pairwise (fun b => key₂ (some b)) (right.filter (on a))
  rw [← filter_orderBy] at hs
  unfold block
  cases hm : (orderBy (fun b => key₂ (some b)) right).filter (on a) with
  | nil => exact List.pairwise_singleton _ _
  | cons m ms =>
      rw [hm] at hs
      refine List.pairwise_map.mpr (hs.imp fun hle => ?_)
      exact Prod.Lex.toLex_le_toLex.mpr (Or.inr ⟨rfl, hle⟩)

omit [LinearOrder κ₁] [LinearOrder κ₂] in
/-- Joined rows with the same key are the same row, when the left keys are unique and, under one
left row, so are the right ones. -/
theorem leftJoin_key_inj (h₁ : (left.map key₁).Nodup)
    (h₂ : ∀ a ∈ left, ((right.filter (on a)).map fun b => key₂ (some b)).Nodup) :
    ∀ x ∈ leftJoin on left right, ∀ y ∈ leftJoin on left right,
      joinKey key₁ key₂ x = joinKey key₁ key₂ y → x = y := by
  rintro ⟨a, ob⟩ hx ⟨a', ob'⟩ hy hkey
  obtain ⟨ha, hbx⟩ := mem_leftJoin.mp hx
  obtain ⟨ha', hby⟩ := mem_leftJoin.mp hy
  have hkeys : key₁ a = key₁ a' ∧ key₂ ob = key₂ ob' := by
    simpa [joinKey] using hkey
  have haa : a = a' := List.inj_on_of_nodup_map h₁ ha ha' hkeys.1
  subst haa
  obtain ⟨-, hox⟩ := mem_block.mp hbx
  obtain ⟨-, hoy⟩ := mem_block.mp hby
  cases ob with
  | none =>
      cases ob' with
      | none => rfl
      | some b' => exact absurd hoy.2 (by simp [hox b' hoy.1])
  | some b =>
      cases ob' with
      | none => exact absurd hox.2 (by simp [hoy b hox.1])
      | some b' =>
          have hb : b ∈ right.filter (on a) := List.mem_filter.mpr hox
          have hb' : b' ∈ right.filter (on a) := List.mem_filter.mpr hoy
          rw [List.inj_on_of_nodup_map (h₂ a ha) hb hb' hkeys.2]

/-- **Sorting a left join is joining the sorted sides.** -/
theorem orderBy_leftJoin (h₁ : (left.map key₁).Nodup)
    (h₂ : ∀ a ∈ left, ((right.filter (on a)).map fun b => key₂ (some b)).Nodup) :
    orderBy (joinKey key₁ key₂) (leftJoin on left right) =
      leftJoin on (orderBy key₁ left) (orderBy (fun b => key₂ (some b)) right) := by
  refine orderBy_eq_of_perm (leftJoin_key_inj h₁ h₂) ?_ ?_
  · exact (orderBy_perm key₁ left).flatMap fun a _ => block_perm (orderBy_perm _ right)
  · refine List.pairwise_flatMap.mpr ⟨fun a _ => block_pairwise, ?_⟩
    -- rows of different left rows: the left keys already decide, strictly
    refine (orderBy_pairwise_lt key₁ h₁).imp fun hlt x hx y hy => ?_
    refine Prod.Lex.toLex_le_toLex.mpr (Or.inl ?_)
    rw [fst_of_mem_block hx, fst_of_mem_block hy]
    exact hlt

end Sorted

end RecipesCore.Relational
