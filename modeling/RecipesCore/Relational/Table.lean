import Mathlib.Data.List.Nodup

/-!
# Rows of a table under `INSERT`, `UPDATE`, `DELETE` and upsert

A table is a list of rows in insertion order. The three statements below change it by a condition
`p` on rows; the lemmas say what becomes of the rows and of a column `key` that no two rows share.
-/

namespace RecipesCore.Relational

variable {α κ : Type*}

/-- `UPDATE … SET f WHERE p`. -/
def updateWhere (p : α → Bool) (f : α → α) (rows : List α) : List α :=
  rows.map fun r => if p r then f r else r

/-- `DELETE … WHERE p`. -/
def deleteWhere (p : α → Bool) (rows : List α) : List α :=
  rows.filter fun r => !p r

/-- `INSERT … ON CONFLICT DO UPDATE`: the conflicting row is changed in place, else `new` is
appended. -/
def upsert (p : α → Bool) (f : α → α) (new : α) (rows : List α) : List α :=
  if rows.any p then updateWhere p f rows else rows ++ [new]

/-- `NOT EXISTS (SELECT 1 … WHERE p)`. -/
def notExists (p : α → Bool) (rows : List α) : Bool := !rows.any p

variable {p : α → Bool} {f : α → α} {new r : α} {rows : List α}

@[simp] theorem mem_deleteWhere : r ∈ deleteWhere p rows ↔ r ∈ rows ∧ p r = false := by
  simp [deleteWhere]

/-- A row after an update is one that was not meant, or one as it was changed. -/
theorem mem_updateWhere :
    r ∈ updateWhere p f rows ↔ (r ∈ rows ∧ p r = false) ∨ ∃ a ∈ rows, p a = true ∧ f a = r := by
  simp only [updateWhere, List.mem_map]
  constructor
  · rintro ⟨a, ha, rfl⟩
    by_cases hp : p a
    · exact Or.inr ⟨a, ha, hp, by simp [hp]⟩
    · exact Or.inl (by simpa [hp] using ha)
  · rintro (⟨hr, hp⟩ | ⟨a, ha, hp, rfl⟩)
    · exact ⟨r, hr, by simp [hp]⟩
    · exact ⟨a, ha, by simp [hp]⟩

/-- A row after an upsert is an old one, the new one, or one that the upsert met. -/
theorem mem_upsert (h : r ∈ upsert p f new rows) :
    r ∈ rows ∨ r = new ∨ ∃ a ∈ rows, p a = true ∧ f a = r := by
  unfold upsert at h
  split at h
  · rcases mem_updateWhere.mp h with ⟨hr, -⟩ | ha
    · exact Or.inl hr
    · exact Or.inr (Or.inr ha)
  · rcases List.mem_append.mp h with hr | hr
    · exact Or.inl hr
    · exact Or.inr (Or.inl (List.mem_singleton.mp hr))

@[simp] theorem notExists_eq_true : notExists p rows = true ↔ ∀ a ∈ rows, p a = false := by
  simp [notExists]

/-- Where there is nothing to delete all rows stay. -/
theorem deleteWhere_of_none (h : ∀ a ∈ rows, p a = false) : deleteWhere p rows = rows :=
  List.filter_eq_self.mpr fun a ha => by simp [h a ha]

/-! ## The other rows

What a statement leaves alone is what a condition `q` selects that its own condition never meets;
the rows outside `q` are `deleteWhere q rows`. -/

section

variable {q : α → Bool}

/-- Rows that an update neither takes nor makes are the same after it. -/
theorem filter_updateWhere (h : ∀ a, p a = true → q a = false ∧ q (f a) = false) :
    (updateWhere p f rows).filter q = rows.filter q := by
  unfold updateWhere
  induction rows with
  | nil => rfl
  | cons a rows ih =>
      rw [List.map_cons, List.filter_cons, List.filter_cons, ih]
      by_cases hp : p a
      · simp [hp, h a hp]
      · simp [hp]

/-- Rows that a delete does not take are the same after it. -/
theorem filter_deleteWhere (h : ∀ a, p a = true → q a = false) :
    (deleteWhere p rows).filter q = rows.filter q := by
  unfold deleteWhere
  rw [List.filter_filter]
  refine List.filter_congr fun a _ => ?_
  by_cases hp : p a
  · simp [hp, h a hp]
  · simp [hp]

theorem filter_append_new (h : q new = false) : (rows ++ [new]).filter q = rows.filter q := by
  simp [h]

/-- An update of selected rows that stay selected. -/
theorem deleteWhere_updateWhere (h : ∀ a, p a = true → q a = true ∧ q (f a) = true) :
    deleteWhere q (updateWhere p f rows) = deleteWhere q rows :=
  filter_updateWhere fun a hp => by simp [h a hp]

/-- A delete makes no difference before one that takes more. -/
theorem deleteWhere_deleteWhere (h : ∀ a, p a = true → q a = true) :
    deleteWhere q (deleteWhere p rows) = deleteWhere q rows :=
  filter_deleteWhere fun a hp => by simp [h a hp]

theorem deleteWhere_append (h : q new = true) :
    deleteWhere q (rows ++ [new]) = deleteWhere q rows :=
  filter_append_new (by simp [h])

end

/-! ## Columns without repetitions -/

variable {key : α → κ}

/-- A column that the update does not touch. -/
theorem map_updateWhere_of_keep (hf : ∀ a, key (f a) = key a) :
    (updateWhere p f rows).map key = rows.map key := by
  simp only [updateWhere, List.map_map]
  refine List.map_congr_left fun a _ => ?_
  simp only [Function.comp]
  split
  · exact hf a
  · rfl

/-- An update that keeps a column loses none of its values. -/
theorem exists_mem_updateWhere (hf : ∀ a, key (f a) = key a) {a : α} (ha : a ∈ rows) :
    ∃ b ∈ updateWhere p f rows, key b = key a := by
  have hkeys : (updateWhere p f rows).map key = rows.map key := map_updateWhere_of_keep hf
  exact List.mem_map.mp (hkeys ▸ List.mem_map.mpr ⟨a, ha, rfl⟩)

theorem nodup_deleteWhere (h : (rows.map key).Nodup) : ((deleteWhere p rows).map key).Nodup :=
  h.sublist (List.Sublist.map key List.filter_sublist)

/-- A new value of the column may be appended. -/
theorem nodup_append_new (h : (rows.map key).Nodup) (hnew : ∀ a ∈ rows, key a ≠ key new) :
    ((rows ++ [new]).map key).Nodup := by
  rw [List.map_append, List.map_singleton]
  refine List.nodup_append.mpr ⟨h, List.nodup_singleton _, ?_⟩
  intro k hk k' hk' heq
  obtain ⟨a, ha, rfl⟩ := List.mem_map.mp hk
  exact hnew a ha (heq.trans (List.mem_singleton.mp hk'))

/-- Moving one row to a key that no other row has. -/
theorem nodup_updateWhere (h : (rows.map key).Nodup)
    (hone : rows.Pairwise fun a b => ¬ (p a = true ∧ p b = true))
    (hfree : ∀ a ∈ rows, p a = true → ∀ b ∈ rows, p b = false → key (f a) ≠ key b) :
    ((updateWhere p f rows).map key).Nodup := by
  have hne : rows.Pairwise fun a b => key a ≠ key b := List.pairwise_map.mp h
  unfold updateWhere
  rw [List.map_map]
  refine List.pairwise_map.mpr ((hne.and hone).imp_of_mem fun {a b} ha hb hab => ?_)
  obtain ⟨hkey, hpp⟩ := hab
  simp only [Function.comp]
  by_cases hpa : p a
  · have hpb : p b = false := by
      by_contra hcon
      exact hpp ⟨hpa, by simpa using hcon⟩
    simp only [hpa, hpb, if_true]
    exact hfree a ha hpa b hb hpb
  · by_cases hpb : p b
    · simp only [hpa, hpb, if_true]
      exact fun heq => hfree b hb hpb a ha (by simpa using hpa) heq.symm
    · simpa [hpa, hpb] using hkey

/-- An update of other columns makes no repetition. -/
theorem nodup_updateWhere_of_keep (hf : ∀ a, key (f a) = key a) (h : (rows.map key).Nodup) :
    ((updateWhere p f rows).map key).Nodup := by
  rw [map_updateWhere_of_keep hf]
  exact h

/-- A condition on a column without repetitions holds of at most one row. -/
theorem pairwise_of_nodup [DecidableEq κ] (h : (rows.map key).Nodup) (k : κ) :
    rows.Pairwise fun a b => ¬ (decide (key a = k) = true ∧ decide (key b = k) = true) := by
  have hne : rows.Pairwise fun a b => key a ≠ key b := List.pairwise_map.mp h
  refine hne.imp fun hab ⟨ha, hb⟩ => hab ?_
  rw [of_decide_eq_true ha, of_decide_eq_true hb]

/-- Selecting by a unique column picks one row. -/
theorem filter_key_eq [DecidableEq κ] {a : α} (h : (rows.map key).Nodup) (ha : a ∈ rows) :
    rows.filter (fun b => decide (key b = key a)) = [a] := by
  induction rows with
  | nil => simp at ha
  | cons b rows ih =>
      obtain ⟨hb, hrows⟩ := List.nodup_cons.mp h
      rcases List.mem_cons.mp ha with rfl | ha
      · have hnone : rows.filter (fun b => decide (key b = key a)) = [] := by
          refine List.filter_eq_nil_iff.mpr fun c hc heq => hb ?_
          exact List.mem_map.mpr ⟨c, hc, of_decide_eq_true heq⟩
        simp [hnone]
      · have hne : key b ≠ key a := fun heq => hb (List.mem_map.mpr ⟨a, ha, heq.symm⟩)
        simp [hne, ih hrows ha]

/-- A value without repetitions is counted once. -/
theorem countP_key_eq [DecidableEq κ] {a : α} (h : (rows.map key).Nodup) (ha : a ∈ rows) :
    rows.countP (fun b => decide (key b = key a)) = 1 := by
  rw [List.countP_eq_length_filter, filter_key_eq h ha, List.length_singleton]

end RecipesCore.Relational
