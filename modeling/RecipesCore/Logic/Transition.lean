import Mathlib.Logic.Basic

/-!
# Transition systems and their reachable states

A `System` has initial states and labelled steps. `Reachable` collects the states of all its finite
runs, `Reachable.invariant` carries a property along a run, and `restrict` keeps the steps that
meet a condition, so that "in every run whose steps all meet the condition" is reachability in the
restricted system.
-/

namespace RecipesCore.Logic

structure System (σ ι : Type*) where
  init : σ → Prop
  step : σ → ι → σ → Prop

namespace System

variable {σ ι : Type*} {S : System σ ι}

inductive Reachable (S : System σ ι) : σ → Prop where
  | init {s : σ} : S.init s → Reachable S s
  | step {s t : σ} {l : ι} : Reachable S s → S.step s l t → Reachable S t

/-- The steps that meet a condition on the state before and the label. -/
def restrict (S : System σ ι) (C : σ → ι → Prop) : System σ ι where
  init := S.init
  step s l t := C s l ∧ S.step s l t

/-- The runs from one of the initial states. -/
def startingAt (S : System σ ι) (start : σ) : System σ ι where
  init s := S.init s ∧ s = start
  step := S.step

/-- The runs that go on from a state. -/
def onwards (S : System σ ι) (start : σ) : System σ ι where
  init s := s = start
  step := S.step

/-- A property that holds initially and survives every step holds in every reachable state. -/
theorem Reachable.invariant {I : σ → Prop} (hinit : ∀ s, S.init s → I s)
    (hstep : ∀ s l t, I s → S.step s l t → I t) {s : σ} (h : S.Reachable s) : I s := by
  induction h with
  | init h => exact hinit _ h
  | step _ hs ih => exact hstep _ _ _ ih hs

/-- A run is a run of the restricted system when every step meets the condition. -/
theorem Reachable.restrict_of_forall {C : σ → ι → Prop} (hC : ∀ s l, C s l) {s : σ}
    (h : S.Reachable s) : (S.restrict C).Reachable s := by
  induction h with
  | init h => exact .init h
  | step _ hs ih => exact .step ih ⟨hC _ _, hs⟩

/-- A run that goes on from a reachable state is a run. -/
theorem Reachable.of_onwards {s t : σ} (hs : S.Reachable s) (h : (S.onwards s).Reachable t) :
    S.Reachable t := by
  induction h with
  | init h =>
      rw [h]
      exact hs
  | step _ hstep ih => exact .step ih hstep

/-- What every step keeps is kept from a state on. -/
theorem Reachable.onwards_keeps {I : σ → Prop} (hstep : ∀ s l t, I s → S.step s l t → I t)
    {s t : σ} (hs : I s) (h : (S.onwards s).Reachable t) : I t := by
  apply h.invariant
  · intro s' hinit
    rw [hinit]
    exact hs
  · exact hstep

/-- Replaying a list of labels: `run` is the state after the last of them. -/
theorem Reachable.of_fold {run : σ → ι → σ} {s : σ} (hs : S.Reachable s) (labels : List ι)
    (hrun : ∀ s, ∀ l ∈ labels, S.step s l (run s l)) : S.Reachable (labels.foldl run s) := by
  induction labels generalizing s with
  | nil => exact hs
  | cons l labels ih =>
      exact ih (.step hs (hrun s l (by simp))) fun s l' hl' => hrun s l' (by simp [hl'])

/-- Take the steps of a list of labels that are enabled when their turn comes. -/
def play (next : σ → ι → Option σ) (s : σ) (labels : List ι) : σ :=
  labels.foldl (fun s l => (next s l).getD s) s

/-- A played list of labels is a run. -/
theorem Reachable.play {next : σ → ι → Option σ} (hnext : ∀ s l t, next s l = some t → S.step s l t)
    {s : σ} (hs : S.Reachable s) (labels : List ι) : S.Reachable (System.play next s labels) := by
  induction labels generalizing s with
  | nil => exact hs
  | cons l labels ih =>
      refine ih (s := (next s l).getD s) ?_
      cases h : next s l with
      | none => exact hs
      | some t => exact .step hs (hnext s l t h)

/-- Take the steps that are enabled and meet a condition when their turn comes. -/
theorem Reachable.play_restrict {next : σ → ι → Option σ} {C : σ → ι → Prop}
    [∀ s l, Decidable (C s l)] (hnext : ∀ s l t, next s l = some t → S.step s l t) {s : σ}
    (hs : S.init s) (labels : List ι) : (S.restrict C).Reachable
      (System.play (fun s l => if C s l then next s l else none) s labels) := by
  refine Reachable.play (S := S.restrict C) (fun s l t h => ?_) (.init hs) labels
  split at h
  · next hC => exact ⟨hC, hnext s l t h⟩
  · cases h

end System

end RecipesCore.Logic
