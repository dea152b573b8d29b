import RecipesCore.App.Submissions
import RecipesCore.Db.Mirror

/-!
# Submissions on a mirror

What a submission does on a manager, it can do again on a mirror of that manager: a write is
replayed, and a read answers on the mirror whatever became of it. So a value that was returned is
returned again.
-/

namespace RecipesCore.App

open RecipesCore.Db RecipesCore.Db.DBManager
open RecipesCore.Logic RecipesCore.Logic.Program
open RecipesCore.Types

/-- On a mirror, for suitable steps, `body` ends in a mirror and returns what it returned. -/
def Follows {α : Type} (body : DbM (Expected α)) : Prop :=
  ∀ m s, Mirrors m s → ∃ environment,
    Mirrors (runOn body m).2 (runOn body (s.withEnvironment environment)).2 ∧
      ∀ a, (runOn body m).1 = .ok (.ok a) →
        (runOn body (s.withEnvironment environment)).1 = .ok (.ok a)

section

variable {α β : Type} {body : DbM α} {m s : DBManager}

/-! ## Writes -/

theorem Follows.of_replayed {body : DbM (Expected α)} (h : Replayed body) : Follows body := by
  intro m s hs
  obtain ⟨used, hused⟩ := h m
  obtain ⟨s', hs', hmirrors⟩ := hused s [] hs
  rw [List.append_nil] at hs'
  refine ⟨used, ?_, fun a ha => ?_⟩
  · rw [hs']
    exact hmirrors.withEnvironment (runOn body m).2.environment []
  · rw [hs']
    exact ha

theorem guarded_replayed {body : DbM (Expected α)} (h : Replayed body) :
    Replayed (guarded body) := by
  intro m
  obtain ⟨used, hused⟩ := h m
  refine ⟨used, fun s extra hs => ?_⟩
  obtain ⟨s', hs', hmirrors⟩ := hused s extra hs
  refine ⟨s', ?_, ?_⟩
  · rw [runOn_guarded, hs', runOn_guarded]
    rcases runOn body m with ⟨e | result, m'⟩ <;> rfl
  · rw [runOn_guarded]
    rcases hrun : runOn body m with ⟨e | result, m'⟩
    · rwa [hrun] at hmirrors
    · rwa [hrun] at hmirrors

theorem requireFound_replayed {body : DbM Bool} {message : String} (h : Replayed body) :
    Replayed (do return RecipeService.requireFound message (← guarded (.ok <$> body))) :=
  (guarded_replayed h.map).bind fun _ => Replayed.pure

/-- What validation refuses touches nothing. -/
theorem refused_follows {error : Error} : Follows (return .error error : DbM (Expected α)) :=
  Follows.of_replayed Replayed.pure

/-- A create is replayed, and what was read back is read back again. -/
theorem createThenGet_follows {create : DbM β} {get : β → DbM (Option α)} {message : String}
    {answer : β → Tables → Option α} (hcreate : Replayed create)
    (hget : ∀ id, ReadsAs (get id) (answer id)) : Follows (createThenGet create get message) := by
  intro m s hs
  obtain ⟨used, hused⟩ := hcreate m
  obtain ⟨s₁, hs₁, hmirrors⟩ := hused s [] hs
  rw [List.append_nil] at hs₁
  refine ⟨used, ?_⟩
  rw [createThenGet, runOn_guarded, runOn_guarded]
  rcases hrun : runOn create m with ⟨e | id, m₁⟩
  · rw [hrun] at hs₁ hmirrors
    rw [runOn_bind_error hrun, runOn_bind_error hs₁]
    exact ⟨hmirrors.withEnvironment m₁.environment [], by simp⟩
  · rw [hrun] at hs₁ hmirrors
    rw [runOn_bind_ok hrun, runOn_bind_ok hs₁]
    obtain ⟨hread, s₂, hs₂, hmirrors₂⟩ := (hget id).mirrors hmirrors
    have hmirrors₂ := hmirrors₂ _ hread
    rw [runOn_bind_ok hs₂]
    -- what was read back on `m`, if anything was, is the answer on the mirror
    rcases hread : runOn (get id) m₁ with ⟨e | found, m₂⟩
    · rw [hread] at hmirrors₂
      rw [runOn_bind_error hread]
      cases answer id m₁.db.tables with
      | none => exact ⟨hmirrors₂, by simp⟩
      | some a => exact ⟨hmirrors₂, by simp⟩
    · rw [hread] at hmirrors₂
      rw [runOn_bind_ok hread, (hget id).exact m₁ found m₂ hread]
      cases answer id m₁.db.tables with
      | none => exact ⟨hmirrors₂, fun a ha => ha⟩
      | some a => exact ⟨hmirrors₂, fun a ha => ha⟩

/-! ## Reads -/

theorem runOn_guarded_map_left : (runOn (guarded (.ok <$> body)) m).2 = (runOn body m).2 := by
  rw [runOn_guarded, map_eq_pure_bind, runOn_bind]
  rcases runOn body m with ⟨e | a, m'⟩ <;> rfl

end

/-- A reading submission returns `answer` of the tables or an error; on a mirror it returns. A
mirror stays one, whether the submission runs on it or on what it mirrors. -/
structure ReadsOff (op : ServiceOperation) (answer : Tables → op.Result) : Prop where
  exact : ∀ {environment m a}, Store.Valid m.db.tables m.db.sequences →
    (op.call environment m).1 = .ok a → a = answer m.db.tables
  returns : ∀ {m s}, Store.Valid m.db.tables m.db.sequences → Mirrors m s →
    (op.call [] s).1 = .ok (answer m.db.tables)
  keeps : ∀ {environment m s}, Mirrors m s → Mirrors (op.call environment m).2 s
  rests : ∀ {m s}, Mirrors m s → Mirrors m (op.call [] s).2

section

variable {op : ServiceOperation} {environment : List StepOutcome} {m s : DBManager}

theorem ReadsOff.of_readsAs {body : DbM op.Result} {read answer : Tables → op.Result}
    (hop : op.run = guarded (.ok <$> body)) (h : ReadsAs body read)
    (hread : ∀ tables sequences, Store.Valid tables sequences → read tables = answer tables) :
    ReadsOff op answer := by
  have hcall : ∀ environment m, runOn (guarded (.ok <$> body)) (m.withEnvironment environment) =
      (.ok (op.call environment m).1, (op.call environment m).2) := by
    intro environment m
    rw [← hop]
    exact op.runOn_eq_call
  have hmirror : ∀ {m s}, Mirrors m s → ∃ s', op.call [] s = (.ok (read m.db.tables), s') ∧
      ∀ m', Mirrors m' s → Mirrors m' s' := by
    intro m s hs
    obtain ⟨-, s', hs', hmirrors⟩ := h.mirrors hs
    have hanswered : runOn op.run (s.withEnvironment []) = (.ok (.ok (read m.db.tables)), s') := by
      rw [hop]
      exact runOn_guarded_map hs'
    exact ⟨s', ServiceOperation.call_of_runOn hanswered, hmirrors⟩
  refine ⟨?_, ?_, ?_, ?_⟩
  · intro environment m a hv ha
    have hcalled := hcall environment m
    rw [ha] at hcalled
    rw [← hread _ _ hv]
    exact h.exact (m.withEnvironment environment) a _ (runOn_guarded_map_eq_ok hcalled)
  · intro m s hv hs
    obtain ⟨s', hs', -⟩ := hmirror hs
    rw [hs', hread _ _ hv]
  · intro environment m s hs
    have hleft : (runOn (guarded (.ok <$> body)) (m.withEnvironment environment)).2 = _ :=
      runOn_guarded_map_left
    rw [hcall environment m] at hleft
    exact hleft ▸ (h.mirrors (hs.withEnvironment environment s.environment)).1
  · intro m s hs
    obtain ⟨s', hs', hmirrors⟩ := hmirror hs
    rw [hs']
    exact hmirrors m hs

theorem readsOff_getProduct (productId : Int) :
    ReadsOff (.getProduct productId) fun tables => findProduct tables productId := by
  have hop : (ServiceOperation.getProduct productId).run =
      guarded (.ok <$> DBManager.getProduct productId) := rfl
  exact .of_readsAs hop (getProduct_readsAs productId)
    fun tables _ _ => selectProductById_rows tables productId

theorem readsOff_getRecipe (recipeId : Int) :
    ReadsOff (.getRecipe recipeId) fun tables => findRecipe (storedRecipes tables) recipeId := by
  have hop : (ServiceOperation.getRecipe recipeId).run =
      guarded (.ok <$> DBManager.getRecipe recipeId) := rfl
  exact .of_readsAs hop (getRecipe_readsAs recipeId)
    fun _ _ hv => selectRecipeById_fetch hv recipeId

/-! ## Every submission -/

/-- What `op` did on `m` can be followed on the mirror `s`. -/
def Followed (op : ServiceOperation) (environment : List StepOutcome) (m s : DBManager) : Prop :=
  ∃ environment', Mirrors (op.call environment m).2 (op.call environment' s).2 ∧
    ∀ a, (op.call environment m).1 = .ok a → (op.call environment' s).1 = .ok a

theorem Follows.followed (h : Follows op.run) (hs : Mirrors m s) : Followed op environment m s := by
  obtain ⟨environment', hmirrors, hvalue⟩ := h _ _ (hs.withEnvironment environment s.environment)
  have hm : runOn op.run (m.withEnvironment environment) = _ := op.runOn_eq_call
  have hs : runOn op.run ((s.withEnvironment s.environment).withEnvironment environment') = _ :=
    op.runOn_eq_call (m := s)
  rw [hm, hs] at hmirrors hvalue
  exact ⟨environment', hmirrors, fun a ha => Except.ok.inj (hvalue a (congrArg _ ha))⟩

theorem ReadsOff.followed {answer : Tables → op.Result} (h : ReadsOff op answer)
    (hv : Store.Valid m.db.tables m.db.sequences) (hs : Mirrors m s) :
    Followed op environment m s :=
  ⟨[], h.rests (h.keeps hs), fun a ha => by rw [h.returns hv hs, h.exact hv ha]⟩

/-- **Every submission can be followed on a mirror.** -/
theorem call_followed (hv : Store.Valid m.db.tables m.db.sequences) (hs : Mirrors m s) :
    Followed op environment m s := by
  cases op with
  | createProduct product =>
      refine Follows.followed ?_ hs
      rw [ServiceOperation.run, RecipeService.createProduct]
      split
      · exact refused_follows
      · rw [createProduct_eq_createThenGet]
        exact createThenGet_follows (createProduct_replayed product) getProduct_readsAs
  | createRecipe recipe =>
      refine Follows.followed ?_ hs
      rw [ServiceOperation.run, RecipeService.createRecipe]
      split
      · exact refused_follows
      · rw [createRecipe_eq_createThenGet]
        exact createThenGet_follows (createRecipe_replayed recipe) getRecipe_readsAs
  | updateProduct productId product =>
      refine Follows.followed ?_ hs
      rw [ServiceOperation.run, RecipeService.updateProduct]
      split
      · exact refused_follows
      · exact .of_replayed (requireFound_replayed (updateProduct_replayed productId product))
  | updateRecipe recipeId recipe =>
      refine Follows.followed ?_ hs
      rw [ServiceOperation.run, RecipeService.updateRecipe]
      split
      · exact refused_follows
      · exact .of_replayed (requireFound_replayed (updateRecipe_replayed recipeId recipe))
  | deleteProduct productId =>
      apply Follows.followed _ hs
      exact .of_replayed (requireFound_replayed (deleteProduct_replayed productId))
  | deleteRecipe recipeId =>
      apply Follows.followed _ hs
      exact .of_replayed (requireFound_replayed (deleteRecipe_replayed recipeId))
  | getProduct productId => exact (readsOff_getProduct productId).followed hv hs
  | getRecipe recipeId => exact (readsOff_getRecipe recipeId).followed hv hs
  | getProducts =>
      exact (ReadsOff.of_readsAs rfl getAllProducts_readsAs fun _ _ _ => rfl).followed hv hs
  | getRecipes =>
      exact (ReadsOff.of_readsAs rfl (fetchRecipes_readsAs _) fun _ _ _ => rfl).followed hv hs
  | getCookableRecipes =>
      exact (ReadsOff.of_readsAs rfl (fetchRecipes_readsAs _) fun _ _ _ => rfl).followed hv hs

end

end RecipesCore.App
