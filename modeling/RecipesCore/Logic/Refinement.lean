import RecipesCore.Logic.Rest

/-!
# One system explained by another

`Simulates R S T`: whatever a step of `S` does, `T` can do under the same label, and the states stay
related by `R`. So every run of `S` is a run of `T` (`Simulates.run`), and what `T` keeps along runs
with certain labels can be read off the runs of `S`.
-/

namespace RecipesCore.Logic

namespace System

variable {σ τ ι : Type*} {S : System σ ι} {T : System τ ι} {R : σ → τ → Prop} {labels : List ι}

/-! ## Runs one after another -/

section

variable {s t u : σ} {labels' : List ι} {l : ι}

theorem Run.one (h : S.step s l t) : S.Run s [l] t := by
  rw [← List.nil_append [l]]
  exact .step .here h

theorem Run.append (h : S.Run s labels t) (h' : S.Run t labels' u) :
    S.Run s (labels ++ labels') u := by
  induction h' with
  | here => rwa [List.append_nil]
  | step _ hlast ih =>
      rw [← List.append_assoc]
      exact .step ih hlast

theorem run_snoc : S.Run s (labels ++ [l]) u ↔ ∃ t, S.Run s labels t ∧ S.step t l u := by
  constructor
  · intro h
    generalize hall : labels ++ [l] = all at h
    cases h with
    | here => simp at hall
    | step hrun hlast =>
        obtain ⟨rfl, hl⟩ := List.append_inj' hall rfl
        obtain rfl := List.singleton_inj.mp hl
        exact ⟨_, hrun, hlast⟩
  · rintro ⟨t, hrun, hlast⟩
    exact .step hrun hlast

theorem run_append :
    S.Run s (labels ++ labels') u ↔ ∃ t, S.Run s labels t ∧ S.Run t labels' u := by
  constructor
  · intro h
    induction labels' using List.reverseRecOn generalizing u with
    | nil => exact ⟨u, by rwa [List.append_nil] at h, .here⟩
    | append_singleton labels' l ih =>
        rw [← List.append_assoc] at h
        obtain ⟨v, hrun, hlast⟩ := run_snoc.mp h
        obtain ⟨t, hfront, hback⟩ := ih hrun
        exact ⟨t, hfront, .step hback hlast⟩
  · rintro ⟨t, hfront, hback⟩
    exact hfront.append hback

theorem run_nil : S.Run s [] t ↔ t = s := by
  constructor
  · intro h
    generalize hnil : ([] : List ι) = labels at h
    cases h with
    | here => rfl
    | step => simp at hnil
  · rintro rfl
    exact .here

theorem run_cons : S.Run s (l :: labels) u ↔ ∃ t, S.step s l t ∧ S.Run t labels u := by
  rw [← List.singleton_append, run_append]
  constructor
  · rintro ⟨t, hone, hrun⟩
    rw [← List.nil_append [l], run_snoc] at hone
    obtain ⟨v, hhere, hstep⟩ := hone
    obtain rfl := run_nil.mp hhere
    exact ⟨t, hstep, hrun⟩
  · rintro ⟨t, hstep, hrun⟩
    exact ⟨t, .one hstep, hrun⟩

/-- What is reachable is reachable from some start. -/
theorem Reachable.exists_start (h : S.Reachable s) :
    ∃ start, S.init start ∧ (S.startingAt start).Reachable s := by
  induction h with
  | @init s h => exact ⟨s, h, .init ⟨h, rfl⟩⟩
  | step _ hstep ih =>
      obtain ⟨start, hstart, hreach⟩ := ih
      exact ⟨start, hstart, .step hreach hstep⟩

end

/-! ## Simulations -/

/-- `T` can take every step of `S`. -/
def Simulates (R : σ → τ → Prop) (S : System σ ι) (T : System τ ι) : Prop :=
  ∀ ⦃s l s' t⦄, R s t → S.step s l s' → ∃ t', T.step t l t' ∧ R s' t'

/-- **Every run of the one is a run of the other.** -/
theorem Simulates.run (h : Simulates R S T) {s s' : σ} {t : τ} (hs : R s t)
    (hrun : S.Run s labels s') : ∃ t', T.Run t labels t' ∧ R s' t' := by
  induction hrun with
  | here => exact ⟨t, .here, hs⟩
  | step _ hstep ih =>
      obtain ⟨t', hrun', ht'⟩ := ih
      obtain ⟨t'', hstep', ht''⟩ := h ht' hstep
      exact ⟨t'', .step hrun' hstep', ht''⟩

/-- What every step with such a label keeps holds at the end of a run with such labels. -/
theorem Run.keeps {I : σ → Prop} {C : ι → Prop}
    (hstep : ∀ ⦃s l s'⦄, C l → I s → S.step s l s' → I s') {s s' : σ} (hs : I s)
    (hrun : S.Run s labels s') (hC : ∀ l ∈ labels, C l) : I s' := by
  induction hrun with
  | here => exact hs
  | step _ hlast ih =>
      obtain ⟨hlabels, hl⟩ := List.forall_mem_append.mp hC
      exact hstep (hl _ (List.mem_singleton_self _)) (ih hlabels) hlast

end System

end RecipesCore.Logic
