import RecipesCore.Db.Calm

/-!
# Operations after failed operations

What an earlier failure can still do to an operation: nothing, except through `reset`. A manager and
a fresh one over the same tables differ in their statements, and an operation rebinds every
parameter of a statement it uses; only a failure that such a statement still carries is not wiped
out but thrown. `Isolated U P body Q` says so of a part of an operation, `U` being the statements it
resets when it succeeds, and is closed under sequencing.
-/

namespace RecipesCore.Db

open RecipesCore.Logic RecipesCore.Logic.Program
open RecipesCore.Relational
open RecipesCore.Sqlite
open RecipesCore.Types
open DBManager

/-- The same stored data and the same things ahead; the statements may differ. -/
structure Agree (s f : DBManager) : Prop where
  tables : s.db.tables = f.db.tables
  sequences : s.db.sequences = f.db.sequences
  saved : s.saved = f.saved
  environment : s.environment = f.environment

/-- No statement carries a failure. -/
def Unfailed (f : DBManager) : Prop := ∀ u, f.failureOf u = none

/-- Where `body` succeeds on a fresh manager, it does the same on `s` if none of the statements `U`
carries a failure there, and otherwise throws. The other statements of `s` stay as they are. -/
def Isolated {α : Type} (U : List StatementId) (P : DBManager → Prop) (body : DbM α)
    (Q : α → DBManager → Prop) : Prop :=
  ∀ s f a f', Agree s f → Unfailed f → P f → runOn body f = (.ok a, f') →
    Unfailed f' ∧ Q a f' ∧
      ((∀ u ∈ U, s.failureOf u = none) → ∃ s', runOn body s = (.ok a, s') ∧ Agree s' f' ∧
        ∀ u, s'.failureOf u = if u ∈ U then none else s.failureOf u) ∧
      ((∃ u ∈ U, s.failureOf u ≠ none) → ∃ e s', runOn body s = (.error e, s'))

/-- `Isolated`, when nothing about the result matters. -/
abbrev Contained {α : Type} (U : List StatementId) (P : DBManager → Prop) (body : DbM α) : Prop :=
  Isolated U P body fun _ _ => True

section

variable {α β : Type} {U V : List StatementId} {P : DBManager → Prop} {body : DbM α}
  {k : α → DbM β} {Q : α → DBManager → Prop} {R : β → DBManager → Prop}

namespace Isolated

theorem pure {a : α} (h : ∀ f, P f → Q a f) : Isolated [] P (Pure.pure a) Q := by
  intro s f b f' hagree hf hP hrun
  simp only [runOn_pure, Prod.mk.injEq, Except.ok.injEq] at hrun
  obtain ⟨rfl, rfl⟩ := hrun
  refine ⟨hf, h f hP, fun _ => ⟨s, rfl, hagree, fun u => by simp⟩, ?_⟩
  rintro ⟨u, hu, -⟩
  simp at hu

/-- What throws on a fresh manager has nothing to keep. -/
theorem throw {e : DbException} : Isolated U P (MonadExcept.throw e : DbM α) Q := by
  intro s f b f' _ _ _ hrun
  simp at hrun

theorem bind (h : Isolated U P body Q) (hk : ∀ a, Isolated V (Q a) (k a) R) :
    Isolated (U ++ V) P (body >>= k) R := by
  intro s f b f' hagree hf hP hrun
  obtain ⟨a, f₁, hbody, hrest⟩ := runOn_bind_eq_ok hrun
  obtain ⟨hf₁, hQ, hok, herror⟩ := h s f a f₁ hagree hf hP hbody
  by_cases hU : ∀ u ∈ U, s.failureOf u = none
  · obtain ⟨s₁, hs₁, hagree₁, hkept⟩ := hok hU
    obtain ⟨hf', hR, hok', herror'⟩ := hk a s₁ f₁ b f' hagree₁ hf₁ hQ hrest
    refine ⟨hf', hR, fun hUV => ?_, ?_⟩
    · have hV : ∀ u ∈ V, s₁.failureOf u = none := by
        intro u hu
        rw [hkept u]
        split
        · rfl
        · exact hUV u (List.mem_append_right _ hu)
      obtain ⟨s', hs', hagree', hkept'⟩ := hok' hV
      refine ⟨s', by rw [runOn_bind_ok hs₁, hs'], hagree', fun u => ?_⟩
      rw [hkept' u, hkept u]
      by_cases huU : u ∈ U <;> by_cases huV : u ∈ V <;> simp [huU, huV]
    · rintro ⟨u, hu, hne⟩
      -- the failed statement is used later, and nothing so far has touched it
      have huU : u ∉ U := fun hmem => hne (hU u hmem)
      have huV : u ∈ V := (List.mem_append.mp hu).resolve_left huU
      obtain ⟨e, s', hs'⟩ := herror' ⟨u, huV, by rw [hkept u, if_neg huU]; exact hne⟩
      exact ⟨e, s', by rw [runOn_bind_ok hs₁, hs']⟩
  · obtain ⟨hf', hR, -, -⟩ := hk a f₁ f₁ b f' ⟨rfl, rfl, rfl, rfl⟩ hf₁ hQ hrest
    refine ⟨hf', hR, fun hUV => absurd (fun u hu => hUV u (List.mem_append_left _ hu)) hU, ?_⟩
    rintro -
    have hex : ∃ u ∈ U, s.failureOf u ≠ none := by
      simpa only [not_forall, exists_prop] using hU
    obtain ⟨e, s', hs'⟩ := herror hex
    exact ⟨e, s', runOn_bind_error hs'⟩

theorem conseq {P' : DBManager → Prop} {Q' : α → DBManager → Prop} (h : Isolated U P body Q)
    (hP : ∀ f, P' f → P f) (hQ : ∀ a f, Q a f → Q' a f) : Isolated U P' body Q' := by
  intro s f a f' hagree hf hP' hrun
  obtain ⟨hf', hQa, hrest⟩ := h s f a f' hagree hf (hP f hP') hrun
  exact ⟨hf', hQ a f' hQa, hrest⟩

/-- Nothing is asked where the precondition fails. -/
theorem of_false (h : ∀ f, ¬ P f) : Isolated U P body Q :=
  fun _ f _ _ _ _ hP _ => absurd hP (h f)

end Isolated

namespace Contained

theorem bind (h : Contained U P body) (hk : ∀ a, Contained V (fun _ => True) (k a)) :
    Contained (U ++ V) P (body >>= k) := Isolated.bind h hk

theorem thenReturn (h : Contained U P body) (f : α → β) :
    Contained U P (do let a ← body; return f a) := by
  have := Contained.bind (k := fun a => Pure.pure (f a)) h fun _ => Isolated.pure fun _ _ => trivial
  rwa [List.append_nil] at this

theorem map (h : Contained U P body) (f : α → β) : Contained U P (f <$> body) := by
  rw [map_eq_pure_bind]
  exact h.thenReturn f

theorem forM {U : α → List StatementId} {xs : List α} {loop : α → DbM PUnit}
    (h : ∀ a, Contained (U a) (fun _ => True) (loop a)) :
    Contained (xs.flatMap U) (fun _ => True) (xs.forM loop) := by
  induction xs with
  | nil => exact Isolated.pure fun _ _ => trivial
  | cons a xs ih =>
      rw [List.forM_eq_forM, List.forM_cons, List.flatMap_cons]
      exact (h a).bind fun _ => ih

end Contained

end

/-! ## Writing calls -/

/-- The effect of an issued write depends on the stored data only, and so does the number of rows it
changes; an `INSERT` that always inserts also fixes the last rowid. -/
theorem sql_alike {A : Admits} {w : Write} {values : List Value} (hw : Issued A w values)
    {gap : Nat} {db₁ db₂ out₁ : Database} (htables : db₂.tables = db₁.tables)
    (hsequences : db₂.sequences = db₁.sequences)
    (h : w.sql (params values) gap db₁ = .ok out₁) :
    ∃ out₂, w.sql (params values) gap db₂ = .ok out₂ ∧ out₂.tables = out₁.tables ∧
      out₂.sequences = out₁.sequences ∧ out₂.changes = out₁.changes ∧
      (w = .createProduct ∨ w = .createRecipe → out₂.lastInsertRowid = out₁.lastInsertRowid) := by
  obtain ⟨tables, sequences, last₁, changes₁⟩ := db₁
  obtain ⟨tables₂, sequences₂, last₂, changes₂⟩ := db₂
  obtain rfl : tables₂ = tables := htables
  obtain rfl : sequences₂ = sequences := hsequences
  cases hw with
  | insertProduct hname =>
      obtain ⟨id, hid, hamount, rfl⟩ := insertProduct_effect.mp h
      exact ⟨_, insertProduct_effect.mpr ⟨id, hid, hamount, rfl⟩, rfl, rfl, rfl, by simp⟩
  | createProduct hname =>
      obtain ⟨id, hid, hamount, hfree, rfl⟩ := createProduct_effect.mp h
      exact ⟨_, createProduct_effect.mpr ⟨id, hid, hamount, hfree, rfl⟩, rfl, rfl, rfl, by simp⟩
  | updateProductById productId hname =>
      rcases updateProduct_effect.mp h with ⟨hno, rfl⟩ | ⟨hex, hamount, hfree, rfl⟩
      · exact ⟨_, updateProduct_effect.mpr (Or.inl ⟨hno, rfl⟩), rfl, rfl, rfl, by simp⟩
      · exact ⟨_, updateProduct_effect.mpr (Or.inr ⟨hex, hamount, hfree, rfl⟩), rfl, rfl, rfl,
          by simp⟩
  | deleteProductById productId =>
      obtain rfl := deleteProduct_effect.mp h
      exact ⟨_, deleteProduct_effect.mpr rfl, rfl, rfl, rfl, by simp⟩
  | insertRecipeIfAbsent hname =>
      obtain ⟨id, hid, ⟨hex, rfl⟩ | ⟨hfree, rfl⟩⟩ := insertRecipeIfAbsent_effect.mp h
      · exact ⟨_, insertRecipeIfAbsent_effect.mpr ⟨id, hid, Or.inl ⟨hex, rfl⟩⟩, rfl, rfl, rfl,
          by simp⟩
      · exact ⟨_, insertRecipeIfAbsent_effect.mpr ⟨id, hid, Or.inr ⟨hfree, rfl⟩⟩, rfl, rfl, rfl,
          by simp⟩
  | createRecipe hname =>
      obtain ⟨id, hid, hfree, rfl⟩ := createRecipe_effect.mp h
      exact ⟨_, createRecipe_effect.mpr ⟨id, hid, hfree, rfl⟩, rfl, rfl, rfl, by simp⟩
  | deleteRecipeIngredientsByRecipeId recipeId =>
      obtain rfl := deleteRecipeIngredients_effect.mp h
      exact ⟨_, deleteRecipeIngredients_effect.mpr rfl, rfl, rfl, rfl, by simp⟩
  | insertRecipeIngredient recipeId hname =>
      obtain ⟨hamount, ⟨hex, rfl⟩ | ⟨hfree, hrecipe, rfl⟩⟩ := insertRecipeIngredient_effect.mp h
      · exact ⟨_, insertRecipeIngredient_effect.mpr ⟨hamount, Or.inl ⟨hex, rfl⟩⟩, rfl, rfl, rfl,
          by simp⟩
      · exact ⟨_, insertRecipeIngredient_effect.mpr ⟨hamount, Or.inr ⟨hfree, hrecipe, rfl⟩⟩, rfl,
          rfl, rfl, by simp⟩
  | updateRecipeNameById recipeId hname =>
      rcases updateRecipeName_effect.mp h with ⟨hno, rfl⟩ | ⟨hex, hfree, rfl⟩
      · exact ⟨_, updateRecipeName_effect.mpr (Or.inl ⟨hno, rfl⟩), rfl, rfl, rfl, by simp⟩
      · exact ⟨_, updateRecipeName_effect.mpr (Or.inr ⟨hex, hfree, rfl⟩), rfl, rfl, rfl, by simp⟩
  | deleteRecipeById recipeId =>
      obtain rfl := deleteRecipe_effect.mp h
      exact ⟨_, deleteRecipe_effect.mpr rfl, rfl, rfl, rfl, by simp⟩

section

variable {A : Admits} {w : Write} {r : Read} {values : List Value} {s f f' : DBManager}
  {P : DBManager → Prop}

/-- A call on a statement that carries a failure throws it. -/
theorem prepare_throws {α : Type} {u : StatementId} {k : Unit → DbM α}
    (h : s.failureOf u ≠ none) : ∃ e s', runOn (prepare u values >>= k) s = (.error e, s') := by
  obtain ⟨exception, he⟩ := Option.ne_none_iff_exists'.mp h
  have hrun := runOn_prepare u values s
  rw [he] at hrun
  exact ⟨_, _, runOn_bind_error hrun⟩

theorem failureOf_prepared (m : DBManager) (u u' : StatementId) :
    (m.prepared u values).failureOf u' = if u' ∈ [u] then none else m.failureOf u' := by
  rw [prepared, failureOf_setStatement]
  simp

/-- A writing call that returns: the statement carried no failure, SQLite went on and the SQL
succeeded. -/
theorem execBound_eq_ok {m m' : DBManager} :
    runOn (execBound w values) m = (.ok (), m') ↔ m.failureOf (.write w) = none ∧
      ∃ gap rest db, nextOutcome m.environment = (.proceed gap, rest) ∧
        w.sql (params values) gap m.db = .ok db ∧
        m' = { m.prepared (.write w) values with environment := rest, db } := by
  cases hf : m.failureOf (.write w) with
  | some exception =>
      obtain ⟨e, t, ht⟩ : ∃ e t, runOn (execBound w values) m = (.error e, t) :=
        prepare_throws (by rw [hf]; simp)
      simp only [ht]
      simp
  | none =>
      have hprep : runOn (prepare (.write w) values) m = (.ok (), m.prepared (.write w) values) := by
        rw [runOn_prepare, hf]
      have henv : (m.prepared (.write w) values).environment = m.environment := rfl
      have hbind : ((m.prepared (.write w) values).statements (.write w)).bindings =
        params values := by simp [prepared]
      rw [execBound, runOn_bind_ok hprep, exec]
      simp only [true_and]
      rcases nextOutcome_cases m.environment with ⟨gap, rest, h⟩ | ⟨exception, rest, h⟩
      · rw [runOn_bind_ok (runOn_step (henv ▸ h)), runOn_primitive, h]
        have hdb : (m.prepared (.write w) values).db = m.db := rfl
        cases hsql : w.sql (params values) gap m.db with
        | error exception => simp [hbind, hdb, hsql]
        | ok db =>
            simp only [hbind, hdb, hsql, Prod.mk.injEq, true_and, StepOutcome.proceed.injEq]
            constructor
            · rintro rfl
              exact ⟨gap, rest, db, ⟨rfl, rfl⟩, hsql, rfl⟩
            · rintro ⟨_, _, _, ⟨rfl, rfl⟩, hsql', rfl⟩
              rw [hsql] at hsql'
              obtain rfl := Except.ok.inj hsql'
              rfl
      · rw [runOn_bind_error (runOn_step_fail (henv ▸ h)), h]
        simp

/-- **A writing call**, and something read off the connection right after it. -/
theorem execBound_isolated {β : Type} (hw : Issued A w values) (g : Database → β)
    (hg : ∀ d₁ d₂ : Database, d₂.changes = d₁.changes →
      (w = .createProduct ∨ w = .createRecipe → d₂.lastInsertRowid = d₁.lastInsertRowid) →
      g d₂ = g d₁) :
    Isolated [.write w] P (do execBound w values; primitive fun m => (.ok (g m.db), m))
      (fun b f' => b = g f'.db ∧
        ∃ f gap, P f ∧ w.sql (params values) gap f.db = .ok f'.db) := by
  intro s f b f' hagree hf hP hrun
  obtain ⟨⟨⟩, f₁, hexec, hread⟩ := runOn_bind_eq_ok hrun
  obtain ⟨-, gap, rest, db, hnext, hsql, rfl⟩ := execBound_eq_ok.mp hexec
  simp only [runOn_primitive, Prod.mk.injEq, Except.ok.injEq] at hread
  obtain ⟨rfl, rfl⟩ := hread
  refine ⟨fun u => ?_, ⟨rfl, f, gap, hP, hsql⟩, fun hu => ?_, ?_⟩
  · have : (f.prepared (.write w) values).failureOf u = _ := failureOf_prepared f (.write w) u
    rw [hf u, ite_self] at this
    exact this
  · obtain ⟨out, hout, htables, hsequences, hchanges, hlast⟩ :=
      sql_alike hw hagree.tables hagree.sequences hsql
    have hs : runOn (execBound w values) s = (.ok (),
        { s.prepared (.write w) values with environment := rest, db := out }) :=
      execBound_eq_ok.mpr ⟨hu _ (by simp), gap, rest, out, by rw [hagree.environment, hnext],
        hout, rfl⟩
    refine ⟨{ s.prepared (.write w) values with environment := rest, db := out }, ?_,
      ⟨htables, hsequences, hagree.saved, rfl⟩, failureOf_prepared s (.write w)⟩
    rw [runOn_bind_ok hs, runOn_primitive]
    exact congrArg (fun b => (Except.ok b, _)) (hg db out hchanges hlast)
  · rintro ⟨u, hu, hne⟩
    rw [List.mem_singleton.mp hu] at hne
    obtain ⟨e, s', hs'⟩ : ∃ e s', runOn (execBound w values) s = (.error e, s') :=
      prepare_throws hne
    exact ⟨e, s', runOn_bind_error hs'⟩

theorem execBound_contained (hw : Issued A w values) :
    Contained [.write w] P (execBound w values) := by
  have h := execBound_isolated (P := P) hw (fun _ => ()) fun _ _ _ _ => rfl
  have hbody : (do execBound w values; primitive fun m => (.ok (), m)) = execBound w values :=
    bind_pure _
  rw [hbody] at h
  exact h.conseq (fun _ h => h) fun _ _ _ => trivial

/-! ## Reading calls -/

/-- A part that only uses up steps does the same on any manager with the same things ahead. -/
def OnlySteps {β : Type} (body : DbM β) : Prop :=
  ∀ f b f', runOn body f = (.ok b, f') → ∃ rest, f' = { f with environment := rest } ∧
    ∀ s : DBManager, s.environment = f.environment →
      runOn body s = (.ok b, { s with environment := rest })

theorem onlySteps_step (u : StatementId) : OnlySteps (step u) := by
  intro f b f' hrun
  rcases nextOutcome_cases f.environment with ⟨gap, rest, h⟩ | ⟨exception, rest, h⟩
  · rw [runOn_step h] at hrun
    simp only [Prod.mk.injEq, Except.ok.injEq] at hrun
    obtain ⟨rfl, rfl⟩ := hrun
    exact ⟨rest, rfl, fun s hs => runOn_step (hs ▸ h)⟩
  · rw [runOn_step_fail h] at hrun
    simp at hrun

theorem onlySteps_pure {β : Type} (b : β) : OnlySteps (Pure.pure b : DbM β) := by
  intro f b' f' hrun
  simp only [runOn_pure, Prod.mk.injEq, Except.ok.injEq] at hrun
  obtain ⟨rfl, rfl⟩ := hrun
  exact ⟨f.environment, rfl, fun s hs => by rw [runOn_pure, ← hs]⟩

theorem OnlySteps.bind {α β : Type} {body : DbM α} {k : α → DbM β} (h : OnlySteps body)
    (hk : ∀ a, OnlySteps (k a)) : OnlySteps (body >>= k) := by
  intro f b f' hrun
  obtain ⟨a, f₁, hbody, hrest⟩ := runOn_bind_eq_ok hrun
  obtain ⟨rest₁, rfl, hs₁⟩ := h f a f₁ hbody
  obtain ⟨rest, rfl, hs⟩ := hk a _ b f' hrest
  refine ⟨rest, rfl, fun s henv => ?_⟩
  rw [runOn_bind_ok (hs₁ s henv)]
  exact hs { s with environment := rest₁ } rfl

theorem onlySteps_stepThrough {β : Type} (visit : β → Row → β) :
    ∀ (rows : List Row) (acc : β), OnlySteps (stepThrough r visit acc rows)
  | [], acc => (onlySteps_step _).bind fun _ => onlySteps_pure acc
  | row :: rest, acc =>
      (onlySteps_step _).bind fun _ => onlySteps_stepThrough visit rest (visit acc row)

/-- **A reading call**: prepare, look at the rows, and use up some steps. -/
theorem read_contained {β : Type} {k : List Row → DbM β} (hk : ∀ rows, OnlySteps (k rows)) :
    Contained [.read r] P (do prepare (.read r) values; let rows ← resultRows r; k rows) := by
  have hprep : ∀ m : DBManager, m.failureOf (.read r) = none →
      runOn (do prepare (.read r) values; let rows ← resultRows r; k rows) m =
        runOn (k (r.sql (params values) m.db.tables)) (m.prepared (.read r) values) := by
    intro m hm
    have hrun := runOn_prepare (.read r) values m
    rw [hm] at hrun
    have hrows : runOn (resultRows r) (m.prepared (.read r) values) =
        (.ok (r.sql (params values) m.db.tables), m.prepared (.read r) values) := by
      simp [resultRows, prepared]
    rw [runOn_bind_ok hrun, runOn_bind_ok hrows]
  intro s f b f' hagree hf _ hrun
  rw [hprep f (hf _)] at hrun
  obtain ⟨rest, rfl, hs⟩ := hk _ _ b f' hrun
  refine ⟨fun u => ?_, trivial, fun hu => ?_, ?_⟩
  · have : (f.prepared (.read r) values).failureOf u = _ := failureOf_prepared f (.read r) u
    rw [hf u, ite_self] at this
    exact this
  · refine ⟨{ s.prepared (.read r) values with environment := rest }, ?_,
      ⟨hagree.tables, hagree.sequences, hagree.saved, rfl⟩, failureOf_prepared s (.read r)⟩
    rw [hprep s (hu _ (by simp)), hagree.tables]
    exact hs (s.prepared (.read r) values) hagree.environment
  · rintro ⟨u, hu, hne⟩
    rw [List.mem_singleton.mp hu] at hne
    exact prepare_throws hne

theorem queryBound_contained {β : Type} {visit : β → Row → β} {start : β} :
    Contained [.read r] P (queryBound r values visit start) :=
  read_contained fun rows => onlySteps_stepThrough visit rows start

/-- `executeStep` looks at the rows after its step; it might as well look before. -/
theorem executeStep_eq :
    executeStep r = (do
      let rows ← resultRows r
      let _ ← step (.read r)
      return rows.head?) := by
  refine Program.ext fun m => ?_
  have hrows : ∀ m : DBManager, runOn (resultRows r) m =
      (.ok (r.sql (m.statements (.read r)).bindings m.db.tables), m) := fun _ => rfl
  rw [executeStep, runOn_bind_ok (hrows m)]
  rcases nextOutcome_cases m.environment with ⟨gap, rest, h⟩ | ⟨exception, rest, h⟩
  · rw [runOn_bind_ok (runOn_step h), runOn_bind_ok (runOn_step h), runOn_bind_ok (hrows _)]
  · rw [runOn_bind_error (runOn_step_fail h), runOn_bind_error (runOn_step_fail h)]

theorem firstBound_contained :
    Contained [.read r] P (firstBound r values) := by
  rw [firstBound, executeStep_eq]
  exact read_contained fun rows => (onlySteps_step _).bind fun _ => onlySteps_pure rows.head?

end

/-! ## Transactions -/

section

variable {α : Type} {U : List StatementId} {P : DBManager → Prop}

theorem execDirect_isolated {g : DBManager → DBManager}
    (hg : ∀ s f, Agree s f → Agree (g s) (g f)) (hst : ∀ m, (g m).statements = m.statements)
    {Q : DBManager → Prop} (hQ : ∀ f rest, P f → Q (g { f with environment := rest })) :
    Isolated [] P (execDirect g) fun _ => Q := by
  intro s f b f' hagree hf hP hrun
  have hfailure : ∀ (m : DBManager) rest u,
      (g { m with environment := rest }).failureOf u = m.failureOf u := by
    intro m rest u
    rw [failureOf, hst]
    rfl
  rcases nextOutcome_cases f.environment with ⟨gap, rest, h⟩ | ⟨exception, rest, h⟩
  · simp only [execDirect, runOn_primitive, h, Prod.mk.injEq, true_and] at hrun
    obtain rfl := hrun
    refine ⟨fun u => by rw [hfailure, hf], hQ f rest hP, fun _ => ?_, ?_⟩
    · refine ⟨g { s with environment := rest }, ?_, hg _ _ ?_, fun u => by simp [hfailure]⟩
      · simp only [execDirect, runOn_primitive, hagree.environment, h]
      · exact ⟨hagree.tables, hagree.sequences, hagree.saved, rfl⟩
    · rintro ⟨u, hu, -⟩
      simp at hu
  · simp only [execDirect, runOn_primitive, h, Prod.mk.injEq, reduceCtorEq, false_and] at hrun

theorem commit_contained : Contained [] P commit :=
  execDirect_isolated (g := fun m => { m with saved := none })
    (fun _ _ h => ⟨h.tables, h.sequences, rfl, h.environment⟩) (fun _ => rfl)
    (Q := fun _ => True) fun _ _ _ => trivial

theorem agree_rollback {s f : DBManager} (h : Agree s f) :
    Agree (rollbackUnlessCommitted s) (rollbackUnlessCommitted f) := by
  have hsaved := h.saved
  unfold rollbackUnlessCommitted
  rw [hsaved]
  cases hf : f.saved with
  | none => exact h
  | some snapshot => exact ⟨rfl, rfl, rfl, h.environment⟩

theorem statements_rollback (m : DBManager) :
    (rollbackUnlessCommitted m).statements = m.statements := by
  unfold rollbackUnlessCommitted
  split <;> rfl

theorem transaction_contained {P' : DBManager → Prop} {block : DbM α}
    {Q : α → DBManager → Prop} (h : Isolated U P' block Q)
    (hP : ∀ f rest, P f → P' { f with
      environment := rest, saved := some (f.db.tables, f.db.sequences) }) :
    Contained U P (transaction block) := by
  have hbegin : Isolated [] P beginTransaction fun _ => P' := execDirect_isolated
    (g := fun m => { m with saved := some (m.db.tables, m.db.sequences) })
    (fun s f h => ⟨h.tables, h.sequences, by rw [h.tables, h.sequences], h.environment⟩)
    (fun _ => rfl) hP
  refine hbegin.bind fun _ => ?_
  have hfailure : ∀ (m : DBManager) u,
      (rollbackUnlessCommitted m).failureOf u = m.failureOf u := by
    intro m u
    rw [failureOf, statements_rollback]
    rfl
  intro s f a f' hagree hf hP' hrun
  rw [runOn_ensuring] at hrun
  obtain ⟨hres, rfl⟩ := Prod.mk.inj hrun
  have hblock : runOn block f = (.ok a, (runOn block f).2) := Prod.ext hres rfl
  obtain ⟨hf', -, hok, herror⟩ := h s f a _ hagree hf hP' hblock
  refine ⟨fun u => by rw [hfailure, hf'], trivial, fun hU => ?_, fun hU => ?_⟩
  · obtain ⟨s', hs', hagree', hkept⟩ := hok hU
    exact ⟨_, by rw [runOn_ensuring, hs'], agree_rollback hagree',
      fun u => by rw [hfailure, hkept]⟩
  · obtain ⟨e, s', hs'⟩ := herror hU
    exact ⟨e, _, by rw [runOn_ensuring, hs']⟩

end

/-! ## Operations -/

/-- The statements `ReplaceRecipeIngredients` resets. -/
def replaceUses (recipe : Recipe) : List StatementId :=
  .write .deleteRecipeIngredientsByRecipeId ::
    recipe.ingredients.map fun _ => .write .insertRecipeIngredient

def insertUses (recipe : Recipe) : List StatementId :=
  .write .insertRecipeIfAbsent :: .read .selectRecipeIdByName :: replaceUses recipe

/-- The statements an operation resets when it succeeds on these tables. -/
def Operation.uses (tables : Tables) : Operation → List StatementId
  | .insertProduct _ => [.write .insertProduct]
  | .insertProducts products => products.map fun _ => .write .insertProduct
  | .createProduct _ => [.write .createProduct]
  | .getProduct _ => [.read .selectProductById]
  | .updateProduct _ _ => [.write .updateProductById]
  | .deleteProduct _ => [.write .deleteProductById]
  | .insertRecipe recipe => insertUses recipe
  | .insertRecipes recipes => recipes.flatMap insertUses
  | .createRecipe recipe => .write .createRecipe :: replaceUses recipe
  | .getRecipe _ => [.read .selectRecipeByIdWithIngredients]
  | .updateRecipe recipeId recipe => .write .updateRecipeNameById ::
      if tables.recipes.any fun row => decide (row.id = recipeId) then replaceUses recipe else []
  | .deleteRecipe _ => [.write .deleteRecipeById]
  | .getAllProducts => [.read .selectAllProducts]
  | .getAllRecipes => [.read .selectAllRecipesWithIngredients]
  | .getCookableRecipes => [.read .selectCookableRecipesWithIngredients]
  | .getRecipeIngredients _ => [.read .selectRecipeIngredientsByRecipeId]

section

variable {P : DBManager → Prop}

theorem changesIsOne_contained {A : Admits} {w : Write} {values : List Value}
    (hw : Issued A w values) :
    Contained [.write w] P (do execBound w values; return (← getChanges) == 1) := by
  have h := execBound_isolated (P := P) hw (fun db => db.changes == 1) fun _ _ h _ => by rw [h]
  exact h.conseq (fun _ h => h) fun _ _ _ => trivial

theorem createThen_contained {A : Admits} {w : Write} {values : List Value}
    (hw : Issued A w values) (hcreate : w = .createProduct ∨ w = .createRecipe) :
    Contained [.write w] P (do execBound w values; getLastInsertRowid) := by
  have h := execBound_isolated (P := P) hw (fun db => db.lastInsertRowid)
    fun _ _ _ h => h hcreate
  exact h.conseq (fun _ h => h) fun _ _ _ => trivial

theorem insertProduct_contained (product : Product) :
    Contained [.write .insertProduct] P (insertProduct product) := by
  rw [insertProduct_eq]
  exact execBound_contained (.insertProduct (A := {}) trivial)

theorem replaceRecipeIngredients_contained (recipeId : Int) (recipe : Recipe) :
    Contained (replaceUses recipe) P (replaceRecipeIngredients recipeId recipe) := by
  rw [replaceRecipeIngredients_eq, replaceUses, List.map_eq_flatMap]
  refine Contained.bind (U := [_]) (execBound_contained
    (.deleteRecipeIngredientsByRecipeId (A := {}) recipeId)) fun _ => ?_
  refine Contained.forM fun ingredient => ?_
  rw [insertIngredient_eq]
  exact execBound_contained (.insertRecipeIngredient (A := {}) recipeId trivial)

theorem insertRecipeBody_contained (recipe : Recipe) :
    Contained (insertUses recipe) P (insertRecipeBody recipe) := by
  refine Contained.bind (U := [_]) (execBound_contained
    (.insertRecipeIfAbsent (A := {}) trivial)) fun _ => ?_
  refine Contained.bind (U := [_]) firstBound_contained fun row => ?_
  cases row with
  | none => exact Isolated.throw
  | some row => exact replaceRecipeIngredients_contained _ recipe

/-- Work in a transaction, committed at the end. -/
theorem commitLast_contained {U : List StatementId} {block : DbM Unit}
    (h : Contained U (fun _ => True) block) :
    Contained U P (transaction (do block; commit)) := by
  have hblock : Contained U (fun _ => True) (do block; commit) := by
    have := h.bind fun _ => commit_contained
    rwa [List.append_nil] at this
  exact transaction_contained hblock fun _ _ _ => trivial

theorem commitReturn_contained {α : Type} {a : α} :
    Contained [] P (do commit; return a) := commit_contained.thenReturn fun _ => a

theorem createRecipe_contained (recipe : Recipe) :
    Contained (.write .createRecipe :: replaceUses recipe) P (createRecipe recipe) := by
  have hissued : Issued {} .createRecipe [.text recipe.name] := .createRecipe trivial
  have hcreate := createThen_contained (P := fun _ => True) hissued (Or.inr rfl)
  have hblock := hcreate.bind fun recipeId =>
    (replaceRecipeIngredients_contained recipeId recipe).bind fun _ =>
      commitReturn_contained (a := recipeId)
  rw [List.append_nil, bind_assoc] at hblock
  rw [createRecipe_eq]
  exact transaction_contained hblock fun _ _ _ => trivial

/-- How many rows a rename changes: the recipe's, if it is there. -/
theorem rename_changes {recipeId : Int} {name : String} {gap : Nat} {db db' : Database}
    (hids : (db.tables.recipes.map fun r => r.id).Nodup)
    (h : Write.updateRecipeNameById.sql (params [.text name, .integer recipeId]) gap db = .ok db') :
    db'.changes = if db.tables.recipes.any fun row => decide (row.id = recipeId) then 1 else 0 := by
  rcases updateRecipeName_effect.mp h with ⟨hno, rfl⟩ | ⟨⟨row, hrow, rfl⟩, -, rfl⟩
  · rw [if_neg fun hany => ?_]
    obtain ⟨row, hrow, hid⟩ := any_decide_iff.mp hany
    exact hno row hrow hid
  · have hany : (db.tables.recipes.any fun other => decide (other.id = row.id)) = true :=
      any_decide_iff.mpr ⟨row, hrow, rfl⟩
    rw [if_pos hany]
    exact countP_key_eq hids hrow

/-- Whether the rename finds its recipe decides whether the ingredients are touched. -/
theorem updateRecipe_contained (recipeId : Int) (recipe : Recipe) (tables : Tables) :
    Contained (Operation.uses tables (.updateRecipe recipeId recipe))
      (fun f => f.db.tables = tables ∧ (tables.recipes.map fun r => r.id).Nodup)
      (updateRecipe recipeId recipe) := by
  have hissued : Issued {} .updateRecipeNameById
      [.text recipe.name, .integer recipeId] := .updateRecipeNameById recipeId trivial
  have hrename := execBound_isolated (P := fun f : DBManager => f.db.tables = tables ∧
      (tables.recipes.map fun r => r.id).Nodup) hissued
    (fun db => db.changes) fun _ _ h _ => h
  have hblock := hrename.bind (R := fun _ _ => True)
    (k := fun changes => if changes != 1 then Pure.pure false else do
      replaceRecipeIngredients recipeId recipe
      commit
      return true)
    (V := if tables.recipes.any fun row => decide (row.id = recipeId) then replaceUses recipe
      else []) fun changes => ?_
  · rw [bind_assoc] at hblock
    rw [updateRecipe_eq]
    exact transaction_contained hblock fun _ _ h => h
  · have hreplace := (replaceRecipeIngredients_contained (P := fun _ => True) recipeId
      recipe).bind fun _ => commitReturn_contained (a := true)
    rw [List.append_nil] at hreplace
    by_cases hone : changes = 1
    · by_cases hany : (tables.recipes.any fun row => decide (row.id = recipeId)) = true
      · simp only [hone, hany, if_true]
        exact hreplace.conseq (fun _ _ => trivial) fun _ _ h => h
      · refine Isolated.of_false ?_
        rintro f' ⟨hchanges, f, gap, ⟨rfl, hids⟩, hsql⟩
        have := rename_changes hids hsql
        rw [if_neg hany] at this
        omega
    · by_cases hany : (tables.recipes.any fun row => decide (row.id = recipeId)) = true
      · refine Isolated.of_false ?_
        rintro f' ⟨hchanges, f, gap, ⟨rfl, hids⟩, hsql⟩
        have := rename_changes hids hsql
        rw [if_pos hany] at this
        omega
      · rw [if_neg hany, if_pos (by simpa using hone)]
        exact Isolated.pure fun _ _ => trivial

/-- **Every operation is contained**: it succeeds as on a fresh manager unless a statement it resets
carries a failure, and then it throws. -/
theorem Operation.run_contained (op : Operation) (tables : Tables) :
    Contained (op.uses tables)
      (fun f => f.db.tables = tables ∧ (tables.recipes.map fun r => r.id).Nodup) op.run := by
  cases op with
  | insertProduct product =>
      exact (insertProduct_contained product).thenReturn fun _ => Returned.unit
  | insertProducts products =>
      refine Contained.thenReturn ?_ fun _ => Returned.unit
      rw [uses, List.map_eq_flatMap]
      exact commitLast_contained (Contained.forM fun product => insertProduct_contained product)
  | createProduct product =>
      refine Contained.map ?_ Returned.id
      rw [createProduct_eq]
      exact createThen_contained (.createProduct (A := {}) trivial) (Or.inl rfl)
  | getProduct productId =>
      refine Contained.map ?_ Returned.product
      rw [getProduct_eq]
      exact firstBound_contained.thenReturn fun row => row.map readProduct
  | updateProduct productId product =>
      refine Contained.map ?_ Returned.bool
      rw [updateProduct_eq]
      exact changesIsOne_contained (.updateProductById (A := {}) productId trivial)
  | deleteProduct productId =>
      refine Contained.map ?_ Returned.bool
      rw [deleteProduct_eq]
      exact changesIsOne_contained (.deleteProductById (A := {}) productId)
  | insertRecipe recipe =>
      refine Contained.thenReturn ?_ fun _ => Returned.unit
      rw [insertRecipe_eq]
      exact commitLast_contained (insertRecipeBody_contained recipe)
  | insertRecipes recipes =>
      refine Contained.thenReturn ?_ fun _ => Returned.unit
      rw [insertRecipes_eq]
      exact commitLast_contained (Contained.forM fun recipe => insertRecipeBody_contained recipe)
  | createRecipe recipe => exact (createRecipe_contained recipe).map Returned.id
  | getRecipe recipeId =>
      refine Contained.map ?_ Returned.recipe
      rw [getRecipe_eq]
      exact queryBound_contained.thenReturn fun fetching : Fetching => fetching.recipes.head?
  | updateRecipe recipeId recipe =>
      exact (updateRecipe_contained recipeId recipe tables).map Returned.bool
  | deleteRecipe recipeId =>
      refine Contained.map ?_ Returned.bool
      rw [deleteRecipe_eq]
      exact changesIsOne_contained (.deleteRecipeById (A := {}) recipeId)
  | getAllProducts =>
      refine Contained.map ?_ Returned.products
      rw [getAllProducts_eq]
      exact queryBound_contained
  | getAllRecipes =>
      refine Contained.map ?_ Returned.recipes
      rw [DBManager.getAllRecipes, fetchRecipes_none_eq]
      exact queryBound_contained.thenReturn Fetching.recipes
  | getCookableRecipes =>
      refine Contained.map ?_ Returned.recipes
      rw [DBManager.getCookableRecipes, fetchRecipes_none_eq]
      exact queryBound_contained.thenReturn Fetching.recipes
  | getRecipeIngredients recipeId =>
      refine Contained.map ?_ Returned.products
      rw [getRecipeIngredients_eq]
      exact queryBound_contained

end

/-- **When an operation that succeeds on a fresh manager succeeds on this one**: exactly when no
statement it resets was left failed. Then its result and its effect are the same; otherwise it
throws. -/
theorem Operation.succeeds_iff (op : Operation) {m f : DBManager} {r : Returned}
    {environment : List StepOutcome} (hv : Store.Valid m.db.tables m.db.sequences)
    (hsaved : m.saved = none)
    (hfresh : runOn op.run ((onTables m.db.tables m.db.sequences).withEnvironment environment) =
      (.ok r, f)) :
    (∃ t, runOn op.run (m.withEnvironment environment) = (.ok r, t) ∧
      t.db.tables = f.db.tables ∧ t.db.sequences = f.db.sequences) ↔
    ∀ u ∈ op.uses m.db.tables, m.failureOf u = none := by
  obtain ⟨-, -, hok, herror⟩ := op.run_contained m.db.tables (m.withEnvironment environment)
    ((onTables m.db.tables m.db.sequences).withEnvironment environment) r f
    ⟨rfl, rfl, hsaved, rfl⟩ (fun _ => rfl) ⟨rfl, hv.recipeIds⟩ hfresh
  constructor
  · rintro ⟨t, ht, -⟩
    intro u hu
    by_contra hne
    obtain ⟨e, t', ht'⟩ := herror ⟨u, hu, hne⟩
    rw [ht] at ht'
    simp at ht'
  · intro hu
    obtain ⟨t, ht, hagree, -⟩ := hok hu
    exact ⟨t, ht, hagree.tables, hagree.sequences⟩

end RecipesCore.Db
