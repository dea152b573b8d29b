import Mathlib.Logic.Function.Basic

/-!
# Programs with state and exceptions

`Prog σ ε α` is a program over a state `σ` that returns an `α` or throws an `ε`; as in C++, what it
did to the state before throwing stays done. `runOn` runs it from a state.

* `Triple P m Q E` — from a state in `P`, a normal return ends in `Q` and a throw ends in `E`.
* `Program.ensuring` — a block with a destructor: `exit` runs on every way out.
* `Program.onPart` — a call that is given a part of the state.

The rules follow the ways programs are put together, so a proof about a program reads like the
program.
-/

namespace RecipesCore.Logic

abbrev Prog (σ ε : Type) := ExceptT ε (StateM σ)

variable {σ ε α β : Type}

namespace Program

/-- The result of running a program from a state, and the state it leaves. -/
def runOn (m : Prog σ ε α) (s : σ) : Except ε α × σ := StateT.run (ExceptT.run m) s

/-- A primitive step, given by what it does to each state. -/
def primitive (f : σ → Except ε α × σ) : Prog σ ε α := ExceptT.mk fun s => f s

/-- Run `m`, then `exit` however `m` ended. -/
def ensuring (exit : σ → σ) (m : Prog σ ε α) : Prog σ ε α :=
  primitive fun s => let (r, t) := runOn m s; (r, exit t)

/-- Run a program on a part of the state. -/
def onPart {τ : Type} (part : σ → τ) (put : τ → σ → σ) (m : Prog τ ε α) : Prog σ ε α :=
  primitive fun s => let (r, t) := runOn m (part s); (r, put t s)

/-- Programs that run alike are equal. -/
theorem ext {m k : Prog σ ε α} (h : ∀ s, runOn m s = runOn k s) : m = k := funext h

@[simp] theorem runOn_primitive (f : σ → Except ε α × σ) (s : σ) :
    runOn (primitive f) s = f s := rfl

@[simp] theorem runOn_pure (a : α) (s : σ) :
    runOn (pure a : Prog σ ε α) s = (.ok a, s) := rfl

@[simp] theorem runOn_throw (e : ε) (s : σ) :
    runOn (throw e : Prog σ ε α) s = (.error e, s) := rfl

@[simp] theorem runOn_get (s : σ) : runOn (get : Prog σ ε σ) s = (.ok s, s) := rfl

@[simp] theorem runOn_modify (f : σ → σ) (s : σ) :
    runOn (modify f : Prog σ ε PUnit) s = (.ok ⟨⟩, f s) := rfl

@[simp] theorem runOn_ensuring (exit : σ → σ) (m : Prog σ ε α) (s : σ) :
    runOn (ensuring exit m) s = ((runOn m s).1, exit (runOn m s).2) := rfl

@[simp] theorem runOn_onPart {τ : Type} (part : σ → τ) (put : τ → σ → σ) (m : Prog τ ε α) (s : σ) :
    runOn (onPart part put m) s = ((runOn m (part s)).1, put (runOn m (part s)).2 s) := rfl

theorem runOn_bind (m : Prog σ ε α) (k : α → Prog σ ε β) (s : σ) :
    runOn (m >>= k) s =
      match runOn m s with
      | (.ok a, t) => runOn (k a) t
      | (.error e, t) => (.error e, t) := by
  have h : runOn (m >>= k) s = ExceptT.bindCont k (runOn m s).1 (runOn m s).2 := rfl
  rw [h]
  rcases runOn m s with ⟨_ | _, _⟩ <;> rfl

theorem runOn_tryCatch (m : Prog σ ε α) (handler : ε → Prog σ ε α) (s : σ) :
    runOn (tryCatch m handler) s =
      match runOn m s with
      | (.ok a, t) => (.ok a, t)
      | (.error e, t) => runOn (handler e) t := by
  unfold runOn ExceptT.run StateT.run
  simp only [tryCatch, tryCatchThe, MonadExceptOf.tryCatch, ExceptT.tryCatch, ExceptT.mk, bind,
    StateT.bind]
  cases m s with
  | mk result next => cases result <;> rfl

/-- Running a sequence whose first part returns. -/
theorem runOn_bind_ok {m : Prog σ ε α} {k : α → Prog σ ε β} {s t : σ} {a : α}
    (h : runOn m s = (.ok a, t)) : runOn (m >>= k) s = runOn (k a) t := by
  rw [runOn_bind, h]

/-- Running a sequence whose first part throws. -/
theorem runOn_bind_error {m : Prog σ ε α} {k : α → Prog σ ε β} {s t : σ} {e : ε}
    (h : runOn m s = (.error e, t)) : runOn (m >>= k) s = (.error e, t) := by
  rw [runOn_bind, h]

/-- A sequence returns only through a return of its first part. -/
theorem runOn_bind_eq_ok {m : Prog σ ε α} {k : α → Prog σ ε β} {s u : σ} {b : β}
    (h : runOn (m >>= k) s = (.ok b, u)) :
    ∃ a t, runOn m s = (.ok a, t) ∧ runOn (k a) t = (.ok b, u) := by
  rw [runOn_bind] at h
  rcases hm : runOn m s with ⟨e | a, t⟩
  · rw [hm] at h
    simp at h
  · rw [hm] at h
    exact ⟨a, t, rfl, h⟩

theorem runOn_map_eq_ok {m : Prog σ ε α} {f : α → β} {s t : σ} {b : β}
    (h : runOn (f <$> m) s = (.ok b, t)) : ∃ a, runOn m s = (.ok a, t) ∧ f a = b := by
  rw [map_eq_pure_bind] at h
  obtain ⟨a, u, ha, hpure⟩ := runOn_bind_eq_ok h
  simp only [runOn_pure, Prod.mk.injEq, Except.ok.injEq] at hpure
  exact ⟨a, hpure.2 ▸ ha, hpure.1⟩

end Program

open Program

/-! ## Triples -/

def Triple (P : σ → Prop) (m : Prog σ ε α) (Q : α → σ → Prop) (E : ε → σ → Prop) : Prop :=
  ∀ s, P s → match runOn m s with
    | (.ok a, t) => Q a t
    | (.error e, t) => E e t

namespace Triple

variable {P P' : σ → Prop} {Q Q' : α → σ → Prop} {R : β → σ → Prop} {E E' F : ε → σ → Prop}
  {m : Prog σ ε α} {k : α → Prog σ ε β}

theorem of_ok (h : Triple P m Q E) {s t : σ} {a : α} (hs : P s)
    (hr : runOn m s = (.ok a, t)) : Q a t := by
  have := h s hs
  rw [hr] at this
  exact this

theorem of_error (h : Triple P m Q E) {s t : σ} {e : ε} (hs : P s)
    (hr : runOn m s = (.error e, t)) : E e t := by
  have := h s hs
  rw [hr] at this
  exact this

/-- What holds on both ways out holds of the state that is left. -/
theorem after {R : σ → Prop} (h : Triple P m (fun _ => R) (fun _ => R)) {s : σ} (hs : P s) :
    R (runOn m s).2 := by
  rcases hr : runOn m s with ⟨e | a, t⟩
  · exact h.of_error hs hr
  · exact h.of_ok hs hr

theorem pure {a : α} (h : ∀ s, P s → Q a s) :
    Triple P (Pure.pure a : Prog σ ε α) Q E := fun s hs => h s hs

theorem throw {e : ε} (h : ∀ s, P s → E e s) :
    Triple P (MonadExcept.throw e : Prog σ ε α) Q E := fun s hs => h s hs

theorem get {Q : σ → σ → Prop} (h : ∀ s, P s → Q s s) :
    Triple P (MonadState.get : Prog σ ε σ) Q E := fun s hs => h s hs

theorem conseq (h : Triple P m Q E) (hP : ∀ s, P' s → P s) (hQ : ∀ a s, Q a s → Q' a s)
    (hE : ∀ e s, E e s → E' e s) : Triple P' m Q' E' := by
  intro s hs
  have := h s (hP s hs)
  rcases hr : runOn m s with ⟨e | a, t⟩
  · rw [hr] at this
    exact hE e t this
  · rw [hr] at this
    exact hQ a t this

/-- Two triples about one program hold together. -/
theorem and (h : Triple P m Q E) (h' : Triple P' m Q' E') :
    Triple (fun s => P s ∧ P' s) m (fun a s => Q a s ∧ Q' a s) (fun e s => E e s ∧ E' e s) := by
  intro s hs
  rcases hr : runOn m s with ⟨e | a, t⟩
  · exact ⟨h.of_error hs.1 hr, h'.of_error hs.2 hr⟩
  · exact ⟨h.of_ok hs.1 hr, h'.of_ok hs.2 hr⟩

/-- It is enough to start from one state at a time. -/
theorem of_each (h : ∀ t, P t → Triple (fun s => s = t) m Q E) : Triple P m Q E :=
  fun s hs => h s hs s rfl

/-- A fact that does not speak about the state survives every program. -/
theorem const {p : Prop} : Triple (fun _ => p) m (fun _ _ => p) (fun _ _ => True) := by
  intro s hp
  rcases hr : runOn m s with ⟨e | a, t⟩
  · trivial
  · exact hp

theorem bind (hm : Triple P m Q E) (hk : ∀ a, Triple (Q a) (k a) R E) :
    Triple P (m >>= k) R E := by
  intro s hs
  rw [runOn_bind]
  rcases hr : runOn m s with ⟨e | a, t⟩
  · exact hm.of_error hs hr
  · exact hk a t (hm.of_ok hs hr)

theorem map {f : α → β} (h : Triple P m (fun a => R (f a)) E) : Triple P (f <$> m) R E := by
  rw [map_eq_pure_bind]
  exact Triple.bind h fun _ => Triple.pure fun _ hs => hs

/-- What a program leaves does not depend on what is made of its result. -/
theorem of_map {f : α → β} {S : σ → Prop} (h : Triple P (f <$> m) (fun _ => S) E) :
    Triple P m (fun _ => S) E := by
  intro s hs
  have := h s hs
  rw [map_eq_pure_bind, runOn_bind] at this
  rcases hr : runOn m s with ⟨e | a, t⟩
  · rw [hr] at this
    exact this
  · rw [hr] at this
    exact this

theorem tryCatch {handler : ε → Prog σ ε α} (hm : Triple P m Q F)
    (hh : ∀ e, Triple (F e) (handler e) Q E) : Triple P (MonadExcept.tryCatch m handler) Q E := by
  intro s hs
  have hrun := runOn_tryCatch m handler s
  show match runOn (MonadExcept.tryCatch m handler) s with
    | (.ok a, t) => Q a t
    | (.error e, t) => E e t
  rcases hr : runOn m s with ⟨e | a, t⟩
  · rw [hr] at hrun
    have := hh e t (hm.of_error hs hr)
    exact hrun ▸ this
  · rw [hr] at hrun
    have hq := hm.of_ok hs hr
    rw [show runOn (MonadExcept.tryCatch m handler) s = (.ok a, t) from hrun]
    exact hq

theorem ensuring {exit : σ → σ}
    (h : Triple P m (fun a t => Q a (exit t)) (fun e t => E e (exit t))) :
    Triple P (Program.ensuring exit m) Q E := by
  intro s hs
  have := h s hs
  rw [runOn_ensuring]
  rcases hr : runOn m s with ⟨e | a, t⟩
  · rw [hr] at this
    exact this
  · rw [hr] at this
    exact this

/-- A loop over a list keeps what its body keeps. -/
theorem forM {xs : List α} {body : α → Prog σ ε PUnit} {I : σ → Prop}
    (h : ∀ a ∈ xs, Triple I (body a) (fun _ => I) E) :
    Triple I (xs.forM body) (fun _ => I) E := by
  induction xs with
  | nil => exact Triple.pure fun _ hs => hs
  | cons a xs ih =>
      rw [List.forM_eq_forM, List.forM_cons]
      exact Triple.bind (h a (by simp)) fun _ => ih fun b hb => h b (by simp [hb])

/-- A loop whose invariant speaks about the elements it is done with. -/
theorem forM_done {xs : List α} {body : α → Prog σ ε PUnit} {I : List α → σ → Prop}
    (h : ∀ done a, Triple (I done) (body a) (fun _ => I (done ++ [a])) E) :
    Triple (I []) (xs.forM body) (fun _ => I xs) E := by
  have hdone : ∀ done, Triple (I done) (xs.forM body) (fun _ => I (done ++ xs)) E := by
    induction xs with
    | nil =>
        intro done
        rw [List.append_nil]
        exact Triple.pure fun _ hs => hs
    | cons a xs ih =>
        intro done
        rw [List.forM_eq_forM, List.forM_cons]
        refine Triple.bind (h done a) fun _ => ?_
        have := ih (done ++ [a])
        rwa [List.append_assoc, List.singleton_append] at this
  exact hdone []

end Triple

end RecipesCore.Logic
