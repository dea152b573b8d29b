import RecipesCore.Logic.Program

/-!
# Two runs side by side

`Similar R V m k` relates two programs over two kinds of states and exceptions: from states in `R`
both return, with results in `V`, or both throw, and the states they end in are in `R` again. What
is thrown is not compared. The rules follow the ways programs are put together.
-/

namespace RecipesCore.Logic

open Program

variable {σ τ ε δ α β γ κ : Type}

/-- What one run made of it, and what the other did. -/
def SameEnd (R : σ → τ → Prop) (V : α → β → Prop) : Except ε α × σ → Except δ β × τ → Prop
  | (.ok a, s), (.ok b, t) => V a b ∧ R s t
  | (.error _, s), (.error _, t) => R s t
  | _, _ => False

def Similar (R : σ → τ → Prop) (V : α → β → Prop) (m : Prog σ ε α) (k : Prog τ δ β) : Prop :=
  ∀ s t, R s t → SameEnd R V (runOn m s) (runOn k t)

namespace Similar

variable {R : σ → τ → Prop} {V : α → β → Prop} {W : γ → κ → Prop} {m : Prog σ ε α}
  {k : Prog τ δ β}

theorem pure {a : α} {b : β} (h : V a b) :
    Similar R V (Pure.pure a : Prog σ ε α) (Pure.pure b : Prog τ δ β) :=
  fun _ _ hR => ⟨h, hR⟩

/-- Two programs that throw are similar, whatever they throw. -/
theorem throw {e : ε} {d : δ} :
    Similar R V (MonadExcept.throw e : Prog σ ε α) (MonadExcept.throw d : Prog τ δ β) :=
  fun _ _ hR => hR

theorem primitive {f : σ → Except ε α × σ} {g : τ → Except δ β × τ}
    (h : ∀ s t, R s t → SameEnd R V (f s) (g t)) :
    Similar R V (Program.primitive f) (Program.primitive g) := h

/-- Similar programs in a row are similar, if related values are taken on alike. -/
theorem bind {f : α → Prog σ ε γ} {g : β → Prog τ δ κ} (h : Similar R V m k)
    (hfg : ∀ a b, V a b → Similar R W (f a) (g b)) : Similar R W (m >>= f) (k >>= g) := by
  intro s t hR
  have hfirst := h s t hR
  rw [runOn_bind, runOn_bind]
  rcases hm : runOn m s with ⟨e | a, s'⟩ <;> rcases hk : runOn k t with ⟨d | b, t'⟩ <;>
    rw [hm, hk] at hfirst
  · exact hfirst
  · exact hfirst.elim
  · exact hfirst.elim
  · exact hfg a b hfirst.1 s' t' hfirst.2

theorem map {f : α → γ} {g : β → κ} (h : Similar R V m k) (hfg : ∀ a b, V a b → W (f a) (g b)) :
    Similar R W (f <$> m) (g <$> k) := by
  rw [map_eq_pure_bind, map_eq_pure_bind]
  exact h.bind fun a b hV => Similar.pure (hfg a b hV)

/-- So are programs with similar exits. -/
theorem ensuring {exit : σ → σ} {exit' : τ → τ} (h : Similar R V m k)
    (hexit : ∀ s t, R s t → R (exit s) (exit' t)) :
    Similar R V (Program.ensuring exit m) (Program.ensuring exit' k) := by
  intro s t hR
  have hbody := h s t hR
  rw [runOn_ensuring, runOn_ensuring]
  rcases hm : runOn m s with ⟨e | a, s'⟩ <;> rcases hk : runOn k t with ⟨d | b, t'⟩ <;>
    rw [hm, hk] at hbody
  · exact hexit s' t' hbody
  · exact hbody.elim
  · exact hbody.elim
  · exact ⟨hbody.1, hexit s' t' hbody.2⟩

/-- Two loops over one list. -/
theorem forM {xs : List γ} {f : γ → Prog σ ε PUnit} {g : γ → Prog τ δ PUnit}
    (h : ∀ c ∈ xs, Similar R Eq (f c) (g c)) : Similar R Eq (xs.forM f) (xs.forM g) := by
  induction xs with
  | nil => exact Similar.pure rfl
  | cons c xs ih =>
      rw [List.forM_eq_forM, List.forM_eq_forM, List.forM_cons, List.forM_cons]
      exact (h c (by simp)).bind fun _ _ _ => ih fun c' hc' => h c' (by simp [hc'])

end Similar

end RecipesCore.Logic
