import Mathlib.Algebra.BigOperators.Group.Finset.Basic
import Mathlib.Algebra.GroupWithZero.Nat
import Mathlib.Algebra.Order.BigOperators.Group.List
import RecipesCore.Logic.Transition

/-!
# Runs that come to rest

Some steps are a system's own, the others come from outside. A *budget* says how many own steps a
state may still take: each own step spends from it, and a step from outside adds what it costs. So
the own steps of a run are bounded by what came from outside (`Budget.own_le`), and a system that is
left alone comes to rest (`Budget.exists_atRest`).

`Costs` adds up what an infinite family of parts costs when all but finitely many are idle.
-/

namespace RecipesCore.Logic

namespace System

variable {σ ι : Type*} {S : System σ ι} {start s t : σ} {labels : List ι}

/-! ## Runs with their labels -/

inductive Run (S : System σ ι) (start : σ) : List ι → σ → Prop where
  | here : Run S start [] start
  | step {labels : List ι} {s t : σ} {l : ι} :
      Run S start labels s → S.step s l t → Run S start (labels ++ [l]) t

theorem Run.reachable (hs : S.Reachable start) (h : S.Run start labels s) : S.Reachable s := by
  induction h with
  | here => exact hs
  | step _ hstep ih => exact .step ih hstep

/-- Labels that are all enabled when their turn comes are those of a run. -/
theorem Run.of_foldlM {next : σ → ι → Option σ} (hnext : ∀ s l t, next s l = some t → S.step s l t)
    (h : labels.foldlM next start = some s) : S.Run start labels s := by
  induction labels using List.reverseRecOn generalizing s with
  | nil =>
      obtain rfl := Option.some.inj h
      exact .here
  | append_singleton labels l ih =>
      rw [List.foldlM_append] at h
      obtain ⟨t, ht, hl⟩ := Option.bind_eq_some_iff.mp h
      rw [List.foldlM_cons] at hl
      obtain ⟨u, hu, hlast⟩ := Option.bind_eq_some_iff.mp hl
      obtain rfl := Option.some.inj hlast
      exact .step (ih ht) (hnext _ _ _ hu)

/-! ## Budgets -/

/-- `affords s n`: from `s`, the system takes at most `n` own steps. -/
structure Budget (S : System σ ι) (own : ι → Bool) (cost : ι → Nat) (affords : σ → Nat → Prop) :
    Prop where
  spends : ∀ {s l t n}, affords s n → S.step s l t → own l = true → ∃ m, m < n ∧ affords t m
  earns : ∀ {s l t n}, affords s n → S.step s l t → own l = false →
    ∃ m, m ≤ n + cost l ∧ affords t m

/-- No own step is enabled. -/
def AtRest (S : System σ ι) (own : ι → Bool) (s : σ) : Prop :=
  ∀ l t, own l = true → ¬ S.step s l t

namespace Budget

variable {own : ι → Bool} {cost : ι → Nat} {affords : σ → Nat → Prop} {n : Nat}

/-- What a run has spent and what is left come from the start and from outside. -/
theorem balance (h : S.Budget own cost affords) (hn : affords start n)
    (hrun : S.Run start labels s) :
    ∃ m, affords s m ∧ m + labels.countP own ≤ n + (labels.map cost).sum := by
  induction hrun with
  | here => exact ⟨n, hn, by simp⟩
  | @step labels s t l _ hstep ih =>
      obtain ⟨m, hm, hle⟩ := ih
      simp only [List.countP_append, List.countP_singleton, List.map_append, List.map_cons,
        List.map_nil, List.sum_append, List.sum_singleton]
      cases hown : own l with
      | true =>
          obtain ⟨m', hlt, hm'⟩ := h.spends hm hstep hown
          exact ⟨m', hm', by simp only [if_true]; omega⟩
      | false =>
          obtain ⟨m', hle', hm'⟩ := h.earns hm hstep hown
          exact ⟨m', hm', by simp only [Bool.false_eq_true, if_false]; omega⟩

/-- **The own steps of a run are paid for from outside.** -/
theorem own_le (h : S.Budget own cost affords) (hn : affords start n)
    (hrun : S.Run start labels s) : labels.countP own ≤ n + (labels.map cost).sum := by
  obtain ⟨m, -, hle⟩ := h.balance hn hrun
  omega

/-- **Left alone, a system comes to rest.** -/
theorem exists_atRest (h : S.Budget own cost affords) (hn : affords s n) :
    ∃ labels t, S.Run s labels t ∧ (∀ l ∈ labels, own l = true) ∧ S.AtRest own t := by
  suffices hfrom : ∀ n t labels, affords t n → S.Run s labels t → (∀ l ∈ labels, own l = true) →
      ∃ labels t, S.Run s labels t ∧ (∀ l ∈ labels, own l = true) ∧ S.AtRest own t from
    hfrom n s [] hn .here (by simp)
  intro n
  induction n using Nat.strongRecOn with
  | _ n ih =>
      intro t labels ht hrun hall
      by_cases hrest : S.AtRest own t
      · exact ⟨labels, t, hrun, hall, hrest⟩
      · simp only [AtRest, not_forall, not_not] at hrest
        obtain ⟨l, u, hown, hstep⟩ := hrest
        obtain ⟨m, hlt, hm⟩ := h.spends ht hstep hown
        refine ih m hlt u (labels ++ [l]) hm (.step hrun hstep) fun l' hl' => ?_
        rcases List.mem_append.mp hl' with hl' | hl'
        · exact hall l' hl'
        · exact List.mem_singleton.mp hl' ▸ hown

end Budget

end System

/-! ## Many parts -/

variable {κ α : Type*}

/-- All but finitely many parts cost nothing, and together they cost `n`. -/
def Costs (cost : α → Nat) (part : κ → α) (n : Nat) : Prop :=
  ∃ active : Finset κ, (∀ k ∉ active, cost (part k) = 0) ∧ ∑ k ∈ active, cost (part k) = n

variable {cost : α → Nat} {part : κ → α} {n : Nat}

theorem Costs.zero (h : ∀ k, cost (part k) = 0) : Costs cost part 0 :=
  ⟨∅, fun k _ => h k, Finset.sum_empty⟩

/-- One part changes, and the costs change with it. -/
theorem Costs.update [DecidableEq κ] (h : Costs cost part n) (k : κ) (a : α) :
    ∃ m, Costs cost (Function.update part k a) m ∧ m + cost (part k) = n + cost a := by
  obtain ⟨active, hidle, rfl⟩ := h
  have hothers : ∑ j ∈ active.erase k, cost (Function.update part k a j) =
      ∑ j ∈ active.erase k, cost (part j) :=
    Finset.sum_congr rfl fun j hj => by rw [Function.update_of_ne (Finset.ne_of_mem_erase hj)]
  have hbefore : ∑ j ∈ active, cost (part j) =
      cost (part k) + ∑ j ∈ active.erase k, cost (part j) := by
    by_cases hk : k ∈ active
    · exact (Finset.add_sum_erase active _ hk).symm
    · rw [hidle k hk, Finset.erase_eq_of_notMem hk, Nat.zero_add]
  refine ⟨_, ⟨insert k (active.erase k), fun j hj => ?_, rfl⟩, ?_⟩
  · obtain ⟨hjk, hj⟩ : j ≠ k ∧ j ∉ active.erase k := by simpa using hj
    rw [Function.update_of_ne hjk]
    exact hidle j fun hmem => hj (Finset.mem_erase.mpr ⟨hjk, hmem⟩)
  · rw [Finset.sum_insert (Finset.notMem_erase k active), Function.update_self, hothers, hbefore]
    omega

end RecipesCore.Logic
