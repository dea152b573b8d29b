import Mathlib.Logic.Function.Basic
import Mathlib.Order.Basic

/-!
# Catalogues

What a table with a counted id and a uniqueness constraint is for: entries under ids that are never
given out twice, and no two entries with one key. A `Catalogue` carries both as fields, so each way
of changing one has to say why they still hold.
-/

namespace RecipesCore.Relational

variable {ι α κ : Type*} [Preorder ι] {label : α → Option ι} {key : α → κ}

/-- An entry says under which id it is, and up to `issued` the ids are used up. -/
structure Catalogue (label : α → Option ι) (key : α → κ) where
  entry : ι → Option α
  issued : ι
  labelled : ∀ {id a}, entry id = some a → label a = some id
  counted : ∀ {id a}, entry id = some a → id ≤ issued
  unique : ∀ {id id' a b}, entry id = some a → entry id' = some b → key a = key b → id = id'

namespace Catalogue

/-- No entry has the key. -/
def Free (c : Catalogue label key) (k : κ) : Prop := ∀ id a, c.entry id = some a → key a ≠ k

/-- No other entry has the key. -/
def FreeBeside (c : Catalogue label key) (id : ι) (k : κ) : Prop :=
  ∀ id' a, id' ≠ id → c.entry id' = some a → key a ≠ k

/-- `xs` are the entries, each of them once. -/
def Lists (c : Catalogue label key) (xs : List α) : Prop :=
  xs.Nodup ∧ ∀ a, a ∈ xs ↔ ∃ id, c.entry id = some a

variable {c : Catalogue label key} {id : ι} {a : α}

/-- A list of the entries tells which one is under an id. -/
theorem entry_of_lists {xs : List α} (h : c.Lists xs) :
    c.entry id = some a ↔ a ∈ xs ∧ label a = some id := by
  rw [h.2]
  constructor
  · intro ha
    exact ⟨⟨id, ha⟩, c.labelled ha⟩
  · rintro ⟨⟨id', ha⟩, hid⟩
    rw [c.labelled ha, Option.some_inj] at hid
    rwa [← hid]

/-- A key that is free beside a new id is free. -/
theorem FreeBeside.free {k : κ} (h : c.FreeBeside id k) (hid : c.issued < id) : c.Free k := by
  intro id' b hb
  apply h id' b _ hb
  rintro rfl
  exact absurd (c.counted hb) (not_le_of_gt hid)

variable [DecidableEq ι]

omit [Preorder ι] in
/-- An entry after an update is the new one, or one that was there. -/
theorem update_eq_some {entry : ι → Option α} {id' : ι} {new : Option α} :
    Function.update entry id new id' = some a ↔
      (id' = id ∧ new = some a) ∨ (id' ≠ id ∧ entry id' = some a) := by
  by_cases h : id' = id
  · subst h
    simp
  · simp [h]

/-- What became an entry had a key that was free. -/
theorem freeBeside_of_update (c' : Catalogue label key)
    (h : c'.entry = Function.update c.entry id (some a)) : c.FreeBeside id (key a) := by
  intro id' b hne hb hkey
  have hnew : c'.entry id = some a := by rw [h, Function.update_self]
  have hold : c'.entry id' = some b := by rw [h, Function.update_of_ne hne, hb]
  exact hne (c'.unique hold hnew hkey)

/-- Another entry, or none, under an id. -/
def set (c : Catalogue label key) (id issued : ι) (new : Option α) (hissued : c.issued ≤ issued)
    (hnew : ∀ {a}, new = some a → label a = some id ∧ id ≤ issued ∧ c.FreeBeside id (key a)) :
    Catalogue label key where
  entry := Function.update c.entry id new
  issued := issued
  labelled := by
    intro id' a h
    rcases update_eq_some.mp h with ⟨rfl, ha⟩ | ⟨-, ha⟩
    · exact (hnew ha).1
    · exact c.labelled ha
  counted := by
    intro id' a h
    rcases update_eq_some.mp h with ⟨rfl, ha⟩ | ⟨-, ha⟩
    · exact (hnew ha).2.1
    · exact (c.counted ha).trans hissued
  unique := by
    intro i j a b h h' hkey
    rcases update_eq_some.mp h with ⟨rfl, ha⟩ | ⟨hi, ha⟩ <;>
      rcases update_eq_some.mp h' with ⟨rfl, hb⟩ | ⟨hj, hb⟩
    · rfl
    · exact absurd hkey.symm ((hnew ha).2.2 j b hj hb)
    · exact absurd hkey ((hnew hb).2.2 i a hi ha)
    · exact c.unique ha hb hkey

/-- A new entry, under an id that was never given out. -/
def add (c : Catalogue label key) (id : ι) (a : α) (hlabel : label a = some id)
    (hid : c.issued < id) (hfree : c.Free (key a)) : Catalogue label key :=
  c.set id id (some a) hid.le fun h => by
    obtain rfl := Option.some_inj.mp h
    exact ⟨hlabel, le_rfl, fun id' b _ hb => hfree id' b hb⟩

/-- Another entry under an id that has one. -/
def replace (c : Catalogue label key) (id : ι) (a : α) (hlabel : label a = some id)
    (hid : ∃ old, c.entry id = some old) (hfree : c.FreeBeside id (key a)) :
    Catalogue label key :=
  c.set id c.issued (some a) le_rfl fun h => by
    obtain rfl := Option.some_inj.mp h
    obtain ⟨old, hold⟩ := hid
    exact ⟨hlabel, c.counted hold, hfree⟩

/-- No entry under the id any more; it stays used up. -/
def remove (c : Catalogue label key) (id : ι) : Catalogue label key :=
  c.set id c.issued none le_rfl fun h => by cases h

/-- `c'` has a new entry. -/
def Adds (c : Catalogue label key) (id : ι) (a : α) (c' : Catalogue label key) : Prop :=
  ∃ hlabel hid hfree, c' = c.add id a hlabel hid hfree

/-- `c'` has another entry under the id. -/
def Replaces (c : Catalogue label key) (id : ι) (a : α) (c' : Catalogue label key) : Prop :=
  ∃ hlabel hid hfree, c' = c.replace id a hlabel hid hfree

/-- `c'` has no entry under the id any more. -/
def Removes (c : Catalogue label key) (id : ι) (c' : Catalogue label key) : Prop :=
  c.entry id ≠ none ∧ c' = c.remove id

variable {c' : Catalogue label key}

/-- The new entry is all that is new. -/
theorem Adds.entry_eq (h : c.Adds id a c') : c'.entry = Function.update c.entry id (some a) := by
  obtain ⟨hlabel, hid, hfree, rfl⟩ := h
  rfl

/-- Only the replaced entry is another. -/
theorem Replaces.entry_eq (h : c.Replaces id a c') :
    c'.entry = Function.update c.entry id (some a) := by
  obtain ⟨hlabel, hid, hfree, rfl⟩ := h
  rfl

/-- Only the removed entry is missing. -/
theorem Removes.entry_eq (h : c.Removes id c') : c'.entry = Function.update c.entry id none := by
  obtain ⟨-, rfl⟩ := h
  rfl

/-! A catalogue that has the new entries shows that the change was one. -/

/-- Entries that some catalogue has can be reached by adding: so the key was free. -/
theorem exists_adds (c' : Catalogue label key) (hid : c.issued < id)
    (h : c'.entry = Function.update c.entry id (some a)) :
    ∃ new, c.Adds id a new ∧ new.entry = c'.entry ∧ new.issued = id := by
  have hlabel : label a = some id := c'.labelled (by rw [h, Function.update_self])
  exact ⟨_, ⟨hlabel, hid, (freeBeside_of_update c' h).free hid, rfl⟩, h.symm, rfl⟩

/-- The same for a replaced entry; no id is used up by it. -/
theorem exists_replaces (c' : Catalogue label key) (hid : ∃ old, c.entry id = some old)
    (h : c'.entry = Function.update c.entry id (some a)) :
    ∃ new, c.Replaces id a new ∧ new.entry = c'.entry ∧ new.issued = c.issued := by
  have hlabel : label a = some id := c'.labelled (by rw [h, Function.update_self])
  exact ⟨_, ⟨hlabel, hid, freeBeside_of_update c' h, rfl⟩, h.symm, rfl⟩

/-- The same for a removed entry, whose id stays used up. -/
theorem exists_removes (c' : Catalogue label key) (hid : c.entry id ≠ none)
    (h : c'.entry = Function.update c.entry id none) :
    ∃ new, c.Removes id new ∧ new.entry = c'.entry ∧ new.issued = c.issued :=
  ⟨_, ⟨hid, rfl⟩, h.symm, rfl⟩

/-! ## Ids in use -/

/-- From `c` to `c'` the id stays in use; its entry stays unless it is changed, and where there is
none, none is made. -/
structure Steady (changed : Prop) (id : ι) (c c' : Catalogue label key) : Prop where
  counted : id ≤ c'.issued
  same : ¬ changed → c'.entry id = c.entry id
  none : c.entry id = none → c'.entry id = none

variable {changed : Prop} {id' : ι}

omit [DecidableEq ι] in
/-- Nothing happens to the ids in use. -/
theorem Steady.refl (h : id' ≤ c.issued) : Steady changed id' c c :=
  ⟨h, fun _ => rfl, fun hnone => hnone⟩

/-- What is added goes under an id that was not in use. -/
theorem Adds.steady (hadds : c.Adds id a c') (h : id' ≤ c.issued) : Steady changed id' c c' := by
  have hsame : c'.entry id' = c.entry id' := by
    rw [hadds.entry_eq]
    obtain ⟨-, hid, -, -⟩ := hadds
    apply Function.update_of_ne
    rintro rfl
    exact absurd h (not_le_of_gt hid)
  obtain ⟨hlabel, hid, hfree, rfl⟩ := hadds
  exact ⟨h.trans hid.le, fun _ => hsame, fun hnone => hsame.trans hnone⟩

/-- A replaced entry is the only one that changes, and there was one before. -/
theorem Replaces.steady (hreplaces : c.Replaces id a c') (h : id' ≤ c.issued)
    (hchanged : id' = id → changed) : Steady changed id' c c' := by
  have hsame : id' ≠ id → c'.entry id' = c.entry id' := by
    intro hne
    rw [hreplaces.entry_eq, Function.update_of_ne hne]
  obtain ⟨hlabel, hid, hfree, rfl⟩ := hreplaces
  refine ⟨h, fun hno => hsame fun heq => hno (hchanged heq), fun hnone => ?_⟩
  obtain ⟨old, hold⟩ := hid
  have hne : id' ≠ id := by
    rintro rfl
    rw [hnone] at hold
    cases hold
  exact (hsame hne).trans hnone

/-- A removed entry is the only one that changes, and there is none after. -/
theorem Removes.steady (hremoves : c.Removes id c') (h : id' ≤ c.issued)
    (hchanged : id' = id → changed) : Steady changed id' c c' := by
  have hentry := hremoves.entry_eq
  obtain ⟨-, rfl⟩ := hremoves
  refine ⟨h, fun hno => ?_, fun hnone => ?_⟩
  · rw [hentry, Function.update_of_ne fun heq => hno (hchanged heq)]
  · by_cases heq : id' = id
    · rw [hentry, heq, Function.update_self]
    · rw [hentry, Function.update_of_ne heq, hnone]

end Catalogue

end RecipesCore.Relational
