import Mathlib.Data.List.Sort
import Mathlib.Data.List.Nodup
import Mathlib.Data.Prod.Lex

/-!
# `ORDER BY` as a stable sort

`orderBy key rows` sorts rows by a key from a linear order. Rows with equal keys keep their table
order: SQL leaves that order open, so a result that must not depend on it goes through
`orderBy_eq_of_perm`, which asks for keys that tell the rows apart.

The one fact that is special to a *stable* sort is `filter_orderBy`: selecting rows before or after
sorting gives the same list, whatever the keys are.
-/

namespace RecipesCore.Relational

variable {α κ : Type*} [LinearOrder κ]

/-- The rows in ascending order of `key`. -/
def orderBy (key : α → κ) (rows : List α) : List α :=
  rows.insertionSort (fun a b => key a ≤ key b)

section

variable (key : α → κ)

instance total_key_le : Std.Total (fun a b : α => key a ≤ key b) :=
  ⟨fun a b => le_total (key a) (key b)⟩

instance isTrans_key_le : IsTrans α (fun a b : α => key a ≤ key b) := ⟨fun _ _ _ => le_trans⟩

theorem orderBy_perm (rows : List α) : (orderBy key rows).Perm rows :=
  List.perm_insertionSort _ rows

@[simp] theorem mem_orderBy {rows : List α} {a : α} : a ∈ orderBy key rows ↔ a ∈ rows :=
  (orderBy_perm key rows).mem_iff

theorem orderBy_pairwise (rows : List α) :
    (orderBy key rows).Pairwise (fun a b => key a ≤ key b) :=
  List.pairwise_insertionSort _ rows

/-- Sorting rows whose keys are all different gives strictly increasing keys. -/
theorem orderBy_pairwise_lt {rows : List α} (h : (rows.map key).Nodup) :
    (orderBy key rows).Pairwise (fun a b => key a < key b) := by
  have hle := orderBy_pairwise key rows
  have hne : (orderBy key rows).Pairwise (fun a b => key a ≠ key b) := by
    have hnd : ((orderBy key rows).map key).Nodup :=
      ((orderBy_perm key rows).map key).nodup_iff.mpr h
    exact List.pairwise_map.mp hnd
  exact (hle.and hne).imp fun ⟨hab, hne⟩ => lt_of_le_of_ne hab hne

end

/-! ## Uniqueness -/

/-- A sorted permutation of the rows is *the* sorted list when the key separates the rows. -/
theorem orderBy_eq_of_perm {key : α → κ} {rows sorted : List α}
    (hinj : ∀ a ∈ rows, ∀ b ∈ rows, key a = key b → a = b)
    (hp : sorted.Perm rows) (hs : sorted.Pairwise (fun a b => key a ≤ key b)) :
    orderBy key rows = sorted := by
  have hpp : (orderBy key rows).Perm sorted := (orderBy_perm key rows).trans hp.symm
  refine List.Perm.eq_of_pairwise ?_ (orderBy_pairwise key rows) hs hpp
  intro a b ha hb hab hba
  exact hinj a ((mem_orderBy key).mp ha) b (hp.mem_iff.mp hb) (le_antisymm hab hba)

/-- Two keys that compare the rows alike sort them alike. -/
theorem orderBy_congr {κ' : Type*} [LinearOrder κ'] {key : α → κ} {key' : α → κ'} {rows : List α}
    (h : ∀ a ∈ rows, ∀ b ∈ rows, (key a ≤ key b ↔ key' a ≤ key' b)) :
    orderBy key rows = orderBy key' rows := by
  have := List.map_insertionSort (r := fun a b => key a ≤ key b)
    (s := fun a b => key' a ≤ key' b) (f := id) (l := rows) (by simpa using h)
  simpa [orderBy] using this

/-! ## Selection commutes with sorting -/

/-- Inserting into a sorted list and then selecting is selecting and then inserting: the dropped
elements can only stand before the insertion point or after elements that are already larger. -/
theorem filter_orderedInsert {r : α → α → Prop} [DecidableRel r] [IsTrans α r] (p : α → Bool)
    (a : α) : ∀ {l : List α}, l.Pairwise r →
      (l.orderedInsert r a).filter p =
        if p a then (l.filter p).orderedInsert r a else l.filter p
  | [], _ => by
    cases h : p a <;> simp [h]
  | b :: l, hl => by
    obtain ⟨hb, htail⟩ := List.pairwise_cons.mp hl
    have ih := filter_orderedInsert p a htail
    by_cases hab : r a b
    · rw [List.orderedInsert_cons_of_le r l hab, List.filter_cons]
      split
      · -- `a` goes in front, and in front of everything that is left of `b :: l`
        have hall : ∀ c ∈ (b :: l).filter p, r a c := by
          intro c hc
          rcases List.mem_cons.mp (List.mem_filter.mp hc).1 with rfl | hcl
          · exact hab
          · exact IsTrans.trans _ _ _ hab (hb c hcl)
        cases hf : (b :: l).filter p with
        | nil => rfl
        | cons c cs =>
            rw [hf] at hall
            rw [List.orderedInsert_cons_of_le r cs (hall c (by simp))]
      · rfl
    · rw [List.orderedInsert_of_not_le r l hab, List.filter_cons, List.filter_cons, ih]
      by_cases hpb : p b
      · by_cases hpa : p a
        · simp only [hpb, hpa, if_true]
          rw [List.orderedInsert_of_not_le r (l.filter p) hab]
        · simp [hpb, hpa]
      · simp [hpb]

/-- `WHERE` before `ORDER BY` is `WHERE` after it. -/
theorem filter_orderBy (key : α → κ) (p : α → Bool) (rows : List α) :
    (orderBy key rows).filter p = orderBy key (rows.filter p) := by
  induction rows with
  | nil => rfl
  | cons a rows ih =>
      have hstep := filter_orderedInsert p a (orderBy_pairwise key rows)
      by_cases hpa : p a
      · simp only [orderBy, List.filter_cons, hpa, if_true, List.insertionSort_cons] at *
        rw [hstep, ih]
      · simp only [orderBy, List.filter_cons, hpa, if_false, Bool.false_eq_true,
          List.insertionSort_cons] at *
        rw [hstep, ih]

end RecipesCore.Relational
