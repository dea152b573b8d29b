import Mathlib.Data.List.Basic

/-!
# The lifetime of what an identifier names

`view s` is what a state shows under one identifier, if anything. An identifier is *used once* when
a step takes what it names away only if it may, changes it only as it may, and never gives a spent
identifier out again. `Lineage` is the history of one and the same thing along a run; a run either
carries it to its end or takes it away for good (`UsedOnce.fate`).
-/

namespace RecipesCore.Logic

variable {σ ι κ : Type*}

/-- What one step may do with an identifier. -/
structure UsedOnce (next : σ → ι → σ) (valid : σ → Prop) (view : σ → Option κ) (spent : σ → Prop)
    (revises : κ → ι → κ → Prop) (removes : ι → Prop) : Prop where
  valid_next : ∀ {s} l, valid s → valid (next s l)
  spent_of_view : ∀ {s a}, valid s → view s = some a → spent s
  kept : ∀ {s a} l, valid s → view s = some a →
    (view (next s l) = none ∧ removes l) ∨
      ∃ b, view (next s l) = some b ∧ (b = a ∨ revises a l b)
  spent_next : ∀ {s} l, valid s → spent s → spent (next s l)
  not_reissued : ∀ {s} l, valid s → spent s → view s = none → view (next s l) = none

/-- The same thing under one identifier along a run: it is there in every state, and a step that
changes it revises it. -/
inductive Lineage (next : σ → ι → σ) (view : σ → Option κ) (revises : κ → ι → κ → Prop) :
    σ → κ → List ι → κ → Prop where
  | here {s : σ} {a : κ} : view s = some a → Lineage next view revises s a [] a
  | unchanged {s : σ} {a b : κ} {l : ι} {labels : List ι} : view s = some a →
      Lineage next view revises (next s l) a labels b →
      Lineage next view revises s a (l :: labels) b
  | revised {s : σ} {a a' b : κ} {l : ι} {labels : List ι} : view s = some a → revises a l a' →
      Lineage next view revises (next s l) a' labels b →
      Lineage next view revises s a (l :: labels) b

variable {next : σ → ι → σ} {valid : σ → Prop} {view : σ → Option κ} {spent : σ → Prop}
  {revises : κ → ι → κ → Prop} {removes : ι → Prop}

/-- A lineage ends at what the last state shows. -/
theorem Lineage.view_end {s : σ} {a b : κ} {labels : List ι}
    (h : Lineage next view revises s a labels b) : view (labels.foldl next s) = some b := by
  induction h with
  | here h => exact h
  | unchanged _ _ ih => exact ih
  | revised _ _ _ ih => exact ih

namespace UsedOnce

variable (h : UsedOnce next valid view spent revises removes)

include h

theorem valid_run {s : σ} (labels : List ι) (hs : valid s) : valid (labels.foldl next s) := by
  induction labels generalizing s with
  | nil => exact hs
  | cons l labels ih => exact ih (h.valid_next l hs)

/-- **A spent identifier that names nothing never names anything again.** -/
theorem gone_run {s : σ} (labels : List ι) (hs : valid s) (hspent : spent s)
    (hnone : view s = none) :
    spent (labels.foldl next s) ∧ view (labels.foldl next s) = none := by
  induction labels generalizing s with
  | nil => exact ⟨hspent, hnone⟩
  | cons l labels ih =>
      exact ih (h.valid_next l hs) (h.spent_next l hs hspent) (h.not_reissued l hs hspent hnone)

/-- **What an identifier names lives on until it is removed**, and then the identifier is out of
use. -/
theorem fate {s : σ} {a : κ} (labels : List ι) (hs : valid s) (ha : view s = some a) :
    (∃ b, Lineage next view revises s a labels b) ∨
      ∃ before l rest b, labels = before ++ l :: rest ∧ Lineage next view revises s a before b ∧
        removes l ∧ view (labels.foldl next s) = none := by
  induction labels generalizing s a with
  | nil => exact Or.inl ⟨a, .here ha⟩
  | cons l labels ih =>
      rcases h.kept l hs ha with ⟨hnone, hl⟩ | ⟨a', ha', hcase⟩
      · have hgone := h.gone_run labels (h.valid_next l hs)
          (h.spent_next l hs (h.spent_of_view hs ha)) hnone
        exact Or.inr ⟨[], l, labels, a, rfl, .here ha, hl, hgone.2⟩
      · -- the first step goes in front of either history of the rest
        have hfirst : ∀ {rest b}, Lineage next view revises (next s l) a' rest b →
            Lineage next view revises s a (l :: rest) b := by
          intro rest b hrest
          rcases hcase with rfl | hrevised
          · exact .unchanged ha hrest
          · exact .revised ha hrevised hrest
        rcases ih (h.valid_next l hs) ha' with
          ⟨b, hb⟩ | ⟨before, l', rest, b, rfl, hb, hl', hnone⟩
        · exact Or.inl ⟨b, hfirst hb⟩
        · exact Or.inr ⟨l :: before, l', rest, b, rfl, hfirst hb, hl', hnone⟩

/-- What a run shows under the identifier at its two ends is one thing. -/
theorem lineage {s : σ} {a b : κ} (labels : List ι) (hs : valid s) (ha : view s = some a)
    (hb : view (labels.foldl next s) = some b) : Lineage next view revises s a labels b := by
  rcases h.fate labels hs ha with ⟨b', hb'⟩ | ⟨_, _, _, _, _, _, _, hnone⟩
  · have := hb'.view_end.symm.trans hb
    rwa [← Option.some_inj.mp this]
  · rw [hnone] at hb
    cases hb

end UsedOnce

end RecipesCore.Logic
