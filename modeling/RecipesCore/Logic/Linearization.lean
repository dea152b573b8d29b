import Mathlib.Data.List.Basic

/-!
# Linearizability

A *history* lists the invocations of a concurrent run in the order they came in: for each its
request, which others had been answered by then, and its answer, once it has one. It is linearizable
when some of them, among them all that were answered, can be put one after another such that each,
alone, gets the answer that it got, and none stands before one that had been answered when it came
in. Only some answers count.

A proof goes along the run: the history grows (`Linearizes.grow`), and for each invocation there is
one moment, its linearization point, when it is put at the end of the order (`Linearizes.put`).
-/

namespace RecipesCore.Logic

structure Invocation (ρ α : Type*) where
  request : ρ
  earlier : List Nat
  answer : Option α
  deriving DecidableEq

/-- An invocation in its place of the sequential order. -/
structure Entry (ρ α : Type*) where
  invocation : Nat
  request : ρ
  earlier : List Nat
  answer : α

variable {ρ α σ : Type*}

def Listed (entries : List (Entry ρ α)) (i : Nat) : Prop := ∃ e ∈ entries, e.invocation = i

/-- The entries one after another; `alone m request a m'` says that a request alone takes `m` to
`m'` and is answered with `a`. -/
inductive Sequential (alone : σ → ρ → α → σ → Prop) (start : σ) : List (Entry ρ α) → σ → Prop where
  | nil : Sequential alone start [] start
  | snoc {entries : List (Entry ρ α)} {m m' : σ} {e : Entry ρ α} :
      Sequential alone start entries m → ¬ Listed entries e.invocation →
      (∀ i ∈ e.earlier, Listed entries i) → alone m e.request e.answer m' →
      Sequential alone start (entries ++ [e]) m'

/-- The entry is about an invocation of the history. -/
def Entry.Recorded (history : List (Invocation ρ α)) (e : Entry ρ α) : Prop :=
  ∃ x, history[e.invocation]? = some x ∧ x.request = e.request ∧ x.earlier = e.earlier

/-- The entries are a sequential order of invocations of the history. -/
structure Linearizes (alone : σ → ρ → α → σ → Prop) (start : σ) (history : List (Invocation ρ α))
    (entries : List (Entry ρ α)) (m : σ) : Prop where
  sequential : Sequential alone start entries m
  recorded : ∀ e ∈ entries, e.Recorded history

/-- Every invocation of `history` is still there. -/
def Grows (history history' : List (Invocation ρ α)) : Prop :=
  ∀ (i : Nat) (x : Invocation ρ α), history[i]? = some x →
    ∃ x', history'[i]? = some x' ∧ x'.request = x.request ∧ x'.earlier = x.earlier

def Linearizable (alone : σ → ρ → α → σ → Prop) (counts : α → Prop) (start : σ)
    (history : List (Invocation ρ α)) : Prop :=
  ∃ entries m, Linearizes alone start history entries m ∧
    ∀ i x a, history[i]? = some x → x.answer = some a →
      ∃ e ∈ entries, e.invocation = i ∧ (counts a → e.answer = a)

variable {alone : σ → ρ → α → σ → Prop} {start m m' : σ} {entries : List (Entry ρ α)}
  {history history' : List (Invocation ρ α)} {i : Nat} {e : Entry ρ α}

theorem listed_append : Listed (entries ++ [e]) i ↔ Listed entries i ∨ e.invocation = i := by
  simp only [Listed, List.mem_append, List.mem_singleton, or_and_right, exists_or, exists_eq_left]

theorem Listed.append (h : Listed entries i) : Listed (entries ++ [e]) i :=
  listed_append.mpr (Or.inl h)

/-- Each entry was run alone, from some state. -/
theorem Sequential.alone_of_mem (h : Sequential alone start entries m) (he : e ∈ entries) :
    ∃ m m', alone m e.request e.answer m' := by
  induction h with
  | nil => cases he
  | @snoc entries m m' last _ _ _ hlast ih =>
      rcases List.mem_append.mp he with he | he
      · exact ih he
      · obtain rfl := List.mem_singleton.mp he
        exact ⟨m, m', hlast⟩

namespace Linearizes

theorem empty : Linearizes alone m history [] m := ⟨.nil, fun _ he => by cases he⟩

/-- What is listed has come in. -/
theorem lt_of_listed (h : Linearizes alone start history entries m) (hi : Listed entries i) :
    i < history.length := by
  obtain ⟨e, he, rfl⟩ := hi
  obtain ⟨x, hx, -⟩ := h.recorded e he
  exact (List.getElem?_eq_some_iff.mp hx).1

/-- New invocations and new answers leave the order what it is. -/
theorem grow (h : Linearizes alone start history entries m)
    (hgrows : Grows history history') :
    Linearizes alone start history' entries m := by
  refine ⟨h.sequential, fun e he => ?_⟩
  obtain ⟨x, hx, hrequest, hearlier⟩ := h.recorded e he
  obtain ⟨x', hx', hrequest', hearlier'⟩ := hgrows _ x hx
  exact ⟨x', hx', hrequest'.trans hrequest, hearlier'.trans hearlier⟩

/-- The linearization point of an invocation. -/
theorem put (h : Linearizes alone start history entries m) (he : e.Recorded history)
    (hnew : ¬ Listed entries e.invocation) (hearlier : ∀ i ∈ e.earlier, Listed entries i)
    (halone : alone m e.request e.answer m') :
    Linearizes alone start history (entries ++ [e]) m' := by
  refine ⟨.snoc h.sequential hnew hearlier halone, fun e' he' => ?_⟩
  rcases List.mem_append.mp he' with he' | he'
  · exact h.recorded e' he'
  · obtain rfl := List.mem_singleton.mp he'
    exact he

end Linearizes

end RecipesCore.Logic
