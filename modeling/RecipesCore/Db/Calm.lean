import RecipesCore.Db.Invariants

/-!
# When SQLite does not fail on its own

A `SELECT` breaks no constraint, so it fails only when SQLite itself does. As long as it does not,
no `SELECT` is ever left failed, and every reading call returns.
-/

namespace RecipesCore.Db

open RecipesCore.Logic RecipesCore.Logic.Program
open RecipesCore.Sqlite
open DBManager

instance (outcome : StepOutcome) : Decidable (∃ gap, outcome = .proceed gap) :=
  match outcome with
  | .proceed gap => isTrue ⟨gap, rfl⟩
  | .fail _ => isFalse nofun

/-- SQLite goes on at every step. -/
def Undisturbed (environment : List StepOutcome) : Prop :=
  ∀ outcome ∈ environment, ∃ gap, outcome = .proceed gap

instance (environment : List StepOutcome) : Decidable (Undisturbed environment) :=
  List.decidableBAll _ _

/-- SQLite will not fail on its own, and no `SELECT` was left failed. -/
structure Calm (m : DBManager) : Prop where
  undisturbed : Undisturbed m.environment
  reads : ∀ r : Read, m.failureOf (.read r) = none

section

variable {m : DBManager} {s : StatementId} {values : List Value}

theorem failureOf_setStatement {s' : StatementId} {st : Statement} :
    (m.setStatement s st).failureOf s' = if s' = s then st.failure else m.failureOf s' := by
  by_cases h : s' = s
  · subst h
    simp [failureOf]
  · simp [failureOf, setStatement_statements_ne h, h]

/-- Setting a statement with no failure disturbs nothing. -/
theorem Calm.setStatement (h : Calm m) {st : Statement} (hst : st.failure = none) :
    Calm (m.setStatement s st) where
  undisturbed := h.undisturbed
  reads r := by
    rw [failureOf_setStatement]
    split
    · exact hst
    · exact h.reads r

/-- A failed write is not a `SELECT`. -/
theorem Calm.recordFailure (h : Calm m) {w : Write} {exception : SqliteException} :
    Calm (m.recordFailure (.write w) exception) where
  undisturbed := h.undisturbed
  reads r := by
    rw [DBManager.recordFailure, failureOf_setStatement, if_neg (by simp)]
    exact h.reads r

theorem Calm.nextOutcome (h : Calm m) : ∃ gap rest,
    Db.nextOutcome m.environment = (.proceed gap, rest) ∧ Calm { m with environment := rest } := by
  cases henv : m.environment with
  | nil => exact ⟨0, [], rfl, by simp [Undisturbed], h.reads⟩
  | cons outcome rest =>
      obtain ⟨gap, rfl⟩ := h.undisturbed outcome (by simp [henv])
      refine ⟨gap, rest, rfl, fun o ho => h.undisturbed o ?_, h.reads⟩
      rw [henv]
      exact List.mem_cons_of_mem _ ho

theorem step_calm : Triple Calm (step s) (fun _ => Calm) (fun _ _ => False) := by
  intro m hm
  obtain ⟨gap, rest, hnext, hrest⟩ := hm.nextOutcome
  rw [runOn_step hnext]
  exact hrest

theorem execDirect_calm {f : DBManager → DBManager} (hf : ∀ m, Calm m → Calm (f m)) :
    Triple Calm (execDirect f) (fun _ => Calm) (fun _ _ => False) := by
  intro m hm
  obtain ⟨gap, rest, hnext, hrest⟩ := hm.nextOutcome
  simpa only [execDirect, runOn_primitive, hnext] using hf _ hrest

theorem prepare_calm : Keeps Calm (prepare s values) := by
  intro m hm
  rw [runOn_prepare]
  cases m.failureOf s with
  | some exception => exact hm.setStatement rfl
  | none => exact hm.setStatement rfl

theorem prepare_read_calm {r : Read} :
    Triple Calm (prepare (.read r) values) (fun _ => Calm) (fun _ _ => False) := by
  intro m hm
  rw [runOn_prepare, hm.reads r]
  exact hm.setStatement rfl

theorem stepThrough_calm {β : Type} {r : Read} (visit : β → Row → β) :
    ∀ (rows : List Row) (acc : β),
      Triple Calm (stepThrough r visit acc rows) (fun _ => Calm) (fun _ _ => False)
  | [], _ => Triple.bind step_calm fun _ => Triple.pure fun _ hm => hm
  | row :: rest, acc =>
      Triple.bind step_calm fun _ => stepThrough_calm visit rest (visit acc row)

/-- **A `SELECT` call returns.** -/
theorem queryBound_calm {β : Type} {r : Read} {visit : β → Row → β} {start : β} :
    Triple Calm (queryBound r values visit start) (fun _ => Calm) (fun _ _ => False) :=
  Triple.bind prepare_read_calm fun _ =>
    Triple.bind (Q := fun _ => Calm) (fun _ hm => hm) fun rows => stepThrough_calm visit rows start

theorem firstBound_calm {r : Read} :
    Triple Calm (firstBound r values) (fun _ => Calm) (fun _ _ => False) :=
  Triple.bind prepare_read_calm fun _ => Triple.bind step_calm fun _ =>
    Triple.bind (Q := fun _ => Calm) (fun _ hm => hm) fun _ => Triple.pure fun _ hm => hm

theorem execBound_calm {w : Write} : Keeps Calm (execBound w values) := by
  refine prepare_calm.bind fun _ => ?_
  refine Keeps.bind (step_calm.conseq (fun _ h => h) (fun _ _ h => h) (fun _ _ h => h.elim))
    fun gap => ?_
  intro m hm
  rw [runOn_primitive]
  cases w.sql (m.statements (.write w)).bindings gap m.db with
  | ok db => exact ⟨hm.undisturbed, hm.reads⟩
  | error exception => exact hm.recordFailure

end

/-- **Calm lasts**, whatever constraints the operations break. -/
theorem calm_kept : KeptByTransactions {} Calm Calm := by
  have hcalls : KeptByCalls {} Calm :=
    { exec := fun _ => execBound_calm
      first := firstBound_calm.conseq (fun _ h => h) (fun _ _ h => h) (fun _ _ h => h.elim)
      query := queryBound_calm.conseq (fun _ h => h) (fun _ _ h => h) (fun _ _ h => h.elim) }
  have hdirect : ∀ {f : DBManager → DBManager}, (∀ m, Calm m → Calm (f m)) →
      Keeps Calm (execDirect f) := fun hf =>
    (execDirect_calm hf).conseq (fun _ h => h) (fun _ _ h => h) (fun _ _ h => h.elim)
  have hrollback : ∀ m, Calm m → Calm (rollbackUnlessCommitted m) := by
    intro m hm
    unfold rollbackUnlessCommitted
    split
    · exact hm
    · exact ⟨hm.undisturbed, hm.reads⟩
  exact
    { inner := hcalls
      outer := hcalls
      commit := hdirect fun _ h => ⟨h.undisturbed, h.reads⟩
      transaction := fun h => Keeps.bind (hdirect fun _ h => ⟨h.undisturbed, h.reads⟩) fun _ =>
        Triple.ensuring (h.conseq (fun _ h => h) (fun _ m hm => hrollback m hm)
          (fun _ m hm => hrollback m hm)) }

end RecipesCore.Db
