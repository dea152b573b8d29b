import Mathlib.Data.List.Basic
import Mathlib.Data.List.Induction
import RecipesCore.Io.Args

/-!
# Last wins, in any order?

`chosen` says what a list of tokens asks for, without going through it: each field has what the
last token that sets it gives. `parseArgs` arrives there unless two output paths clash on the way,
which need not be the paths it would arrive at.
-/

namespace RecipesCore.Io

open RecipesCore.Types

/-! ## What the tokens ask for -/

/-- What the last item that gives a value gives, and `default` when none does. -/
def lastGiven {τ α : Type*} (gives : τ → Option α) (default : α) (items : List τ) : α :=
  (items.filterMap gives).getLast?.getD default

theorem lastGiven_snoc {τ α : Type*} {gives : τ → Option α} {default : α} {items : List τ}
    {item : τ} : lastGiven gives default (items ++ [item]) =
      (gives item).getD (lastGiven gives default items) := by
  cases hgives : gives item with
  | none => simp [lastGiven, hgives]
  | some a => simp [lastGiven, hgives]

/-- Items that give nothing do not count. -/
theorem lastGiven_filter {τ α : Type*} {gives : τ → Option α} {default : α} {items : List τ}
    {p : τ → Bool} (h : ∀ item, (gives item).isSome = true → p item = true) :
    lastGiven gives default (items.filter p) = lastGiven gives default items := by
  unfold lastGiven
  congr 2
  rw [List.filterMap_filter]
  refine List.filterMap_congr fun item _ => ?_
  cases hgives : gives item with
  | none => simp
  | some a => simp [h item (by rw [hgives]; rfl)]

/-- What a token gives to a field that one flag turns on and another turns off. -/
def givesSwitch (on off : String) (token : String) : Option Bool :=
  if (splitOption token).1 = on then some true
  else if (splitOption token).1 = off then some false
  else none

def givesHelp (token : String) : Option Bool :=
  if (splitOption token).1 = "-h" ∨ (splitOption token).1 = "--help" then some true else none

def givesSelection (token : String) : Option RecipeSelection :=
  if (splitOption token).1 = "--all-recipes" then some .all
  else if (splitOption token).1 = "--cookable" then some .cookable
  else none

def givesPath (flag : String) (token : String) : Option Path :=
  if (splitOption token).1 = flag then some ⟨(splitOption token).2⟩ else none

/-- Every field as the last token that sets it has it, or as it is by default. -/
def chosen (root : String) (tokens : List String) : Args where
  showHelp := lastGiven givesHelp false tokens
  app :=
    { recipeSelection := lastGiven givesSelection .all tokens
      dbPath := lastGiven (givesPath "--db-path")
        ((getProjectDataDir root).append "table.db") tokens
      serverConfigPath := lastGiven (givesPath "--server-config") ⟨""⟩ tokens }
  out :=
    { isFullInfo := lastGiven (givesSwitch "--full-info" "--short") true tokens
      writeConsole := lastGiven (givesSwitch "--console" "--no-console") true tokens
      writeJson := lastGiven (givesSwitch "--json" "--no-json") true tokens
      writeYaml := lastGiven (givesSwitch "--yaml" "--no-yaml") true tokens
      jsonOutPath := lastGiven (givesPath "--json-out")
        ((getProjectOutDir root).append "info.json") tokens
      yamlOutPath := lastGiven (givesPath "--yaml-out")
        ((getProjectOutDir root).append "info.yaml") tokens }

/-- The token names a value flag. -/
def TakesValue (token : String) : Prop := getFlagType (splitOption token).1 = some .value

instance (token : String) : Decidable (TakesValue token) := inferInstanceAs (Decidable (_ = _))

theorem chosen_bool {root token : String} {tokens : List String}
    (h : getFlagType (splitOption token).1 = some .bool) :
    setBoolFlag (chosen root tokens) (splitOption token).1 = chosen root (tokens ++ [token]) := by
  have hmem := getFlagType_eq_some h
  simp only [chosen, lastGiven_snoc, givesHelp, givesSwitch, givesSelection, givesPath]
  generalize splitOption token = split at *
  obtain ⟨option, value⟩ := split
  simp only [kFlags, List.mem_cons, FlagInfo.mk.injEq, reduceCtorEq, and_false, and_true,
    List.not_mem_nil, or_false] at hmem
  rcases hmem with rfl | rfl | rfl | rfl | rfl | rfl | rfl | rfl | rfl | rfl | rfl | rfl <;> rfl

theorem chosen_value {root token : String} {tokens : List String} (h : TakesValue token) :
    storeValue (chosen root tokens) (splitOption token).1 (splitOption token).2 =
      chosen root (tokens ++ [token]) := by
  have hmem := getFlagType_eq_some h
  simp only [chosen, lastGiven_snoc, givesHelp, givesSwitch, givesSelection, givesPath]
  generalize splitOption token = split at *
  obtain ⟨option, value⟩ := split
  simp only [kFlags, List.mem_cons, FlagInfo.mk.injEq, reduceCtorEq, and_false, and_true,
    List.not_mem_nil, or_false, false_or] at hmem
  rcases hmem with rfl | rfl | rfl | rfl <;> rfl

theorem chosen_command {root token : String} {tokens : List String}
    (h : getFlagType (splitOption token).1 = some .command) :
    chosen root (tokens ++ [token]) = chosen root tokens := by
  have hmem := getFlagType_eq_some h
  simp only [chosen, lastGiven_snoc, givesHelp, givesSwitch, givesSelection, givesPath]
  generalize splitOption token = split at *
  obtain ⟨option, value⟩ := split
  simp only [kFlags, List.mem_cons, FlagInfo.mk.injEq, reduceCtorEq, and_false, and_true,
    List.not_mem_nil, or_false, false_or] at hmem
  rcases hmem with rfl | rfl | rfl | rfl <;> rfl

/-- Only a value flag changes an output path. -/
theorem chosen_sameOutputs {root token : String} {tokens : List String} (h : ¬ TakesValue token) :
    (chosen root (tokens ++ [token])).sameOutputs = (chosen root tokens).sameOutputs := by
  have hjson : givesPath "--json-out" token = none := by
    apply if_neg
    intro hoption
    exact h (by rw [TakesValue, hoption]; rfl)
  have hyaml : givesPath "--yaml-out" token = none := by
    apply if_neg
    intro hoption
    exact h (by rw [TakesValue, hoption]; rfl)
  simp only [Args.sameOutputs, chosen, lastGiven_snoc, hjson, hyaml, Option.getD_none]

/-- One token goes on from what the tokens before it ask for. -/
theorem parseToken_chosen {root token : String} {tokens : List String} {args : Args} :
    parseToken (chosen root tokens) token = .ok args ↔ isValidToken token = true ∧
      (TakesValue token → (chosen root (tokens ++ [token])).sameOutputs = false) ∧
      args = chosen root (tokens ++ [token]) := by
  unfold parseToken
  cases hvalid : isValidToken token with
  | false => simp
  | true =>
      have htype : getFlagType (splitOption token).1 ≠ none := by
        intro hnone
        simp [isValidToken, hnone] at hvalid
      simp only [Bool.true_eq_false, if_false, true_and]
      cases htype' : getFlagType (splitOption token).1 with
      | none => exact absurd htype' htype
      | some type =>
          cases type with
          | bool =>
              have hnot : ¬ TakesValue token := by
                intro h
                rw [TakesValue, htype'] at h
                cases h
              simp only [chosen_bool htype', Except.ok.injEq, hnot, false_imp_iff, true_and]
              exact eq_comm
          | command =>
              have hnot : ¬ TakesValue token := by
                intro h
                rw [TakesValue, htype'] at h
                cases h
              simp only [chosen_command htype', Except.ok.injEq, hnot, false_imp_iff, true_and]
              exact eq_comm
          | value =>
              have hvalue : TakesValue token := htype'
              simp only [setValueFlag, chosen_value hvalue, hvalue, true_imp_iff]
              cases (chosen root (tokens ++ [token])).sameOutputs with
              | true => simp
              | false =>
                  simp only [Bool.false_eq_true, if_false, Except.ok.injEq, true_and]
                  exact eq_comm

/-- The JSON and the YAML path chosen up to some value token of the list are equal. -/
def Clashes (root : String) (tokens : List String) : Prop :=
  ∃ front token back, tokens = front ++ token :: back ∧ TakesValue token ∧
    (chosen root (front ++ [token])).sameOutputs = true

theorem clashes_snoc {root token : String} {tokens : List String} :
    Clashes root (tokens ++ [token]) ↔ Clashes root tokens ∨
      TakesValue token ∧ (chosen root (tokens ++ [token])).sameOutputs = true := by
  constructor
  · intro h
    obtain ⟨front, token', back, heq, hvalue, hsame⟩ := h
    induction back using List.reverseRecOn with
    | nil =>
        obtain ⟨rfl, htoken⟩ := List.append_inj' heq rfl
        cases htoken
        exact Or.inr ⟨hvalue, hsame⟩
    | append_singleton back last _ =>
        rw [← List.cons_append, ← List.append_assoc] at heq
        obtain ⟨rfl, -⟩ := List.append_inj' heq rfl
        exact Or.inl ⟨front, token', back, rfl, hvalue, hsame⟩
  · intro h
    obtain ⟨front, token', back, rfl, hvalue, hsame⟩ | ⟨hvalue, hsame⟩ := h
    · exact ⟨front, token', back ++ [token], by simp, hvalue, hsame⟩
    · exact ⟨tokens, token, [], rfl, hvalue, hsame⟩

/-- The whole list: it is accepted when every token is valid and no two paths clash on the way. -/
theorem foldlM_chosen {root : String} {tokens : List String} {args : Args} :
    tokens.foldlM parseToken (Args.initial root) = .ok args ↔
      (∀ token ∈ tokens, isValidToken token = true) ∧ ¬ Clashes root tokens ∧
        args = chosen root tokens := by
  induction tokens using List.reverseRecOn generalizing args with
  | nil =>
      have hnone : ¬ Clashes root [] := by
        intro h
        obtain ⟨front, token, back, heq, -⟩ := h
        simp at heq
      show Except.ok (Args.initial root) = Except.ok args ↔ _
      rw [Except.ok.injEq]
      constructor
      · intro heq
        exact ⟨by simp, hnone, heq.symm⟩
      · intro h
        exact h.2.2.symm
  | append_singleton tokens token ih =>
      -- the last token is parsed on what the tokens before it chose
      have hlast : (tokens ++ [token]).foldlM parseToken (Args.initial root) = .ok args ↔
          (∀ token ∈ tokens, isValidToken token = true) ∧ ¬ Clashes root tokens ∧
            parseToken (chosen root tokens) token = .ok args := by
        rw [List.foldlM_append]
        simp only [List.foldlM_cons, List.foldlM_nil, bind_pure]
        constructor
        · intro h
          obtain ⟨before, hbefore, hstep⟩ : ∃ before,
              tokens.foldlM parseToken (Args.initial root) = .ok before ∧
                parseToken before token = .ok args := by
            cases hrun : tokens.foldlM parseToken (Args.initial root) with
            | error e =>
                rw [hrun] at h
                cases h
            | ok before =>
                rw [hrun] at h
                exact ⟨before, rfl, h⟩
          obtain ⟨hvalid, hclash, rfl⟩ := ih.mp hbefore
          exact ⟨hvalid, hclash, hstep⟩
        · intro h
          obtain ⟨hvalid, hclash, hstep⟩ := h
          rw [ih.mpr ⟨hvalid, hclash, rfl⟩]
          exact hstep
      rw [hlast, parseToken_chosen, clashes_snoc]
      grind

theorem parseArgs_eq_ok_iff {root program : String} {tokens : List String} {args : Args} :
    parseArgs root (program :: tokens) = .ok args ↔
      (∀ token ∈ tokens, isValidToken token = true) ∧ ¬ Clashes root tokens ∧
        args = chosen root tokens :=
  foldlM_chosen

/-- Paths that are equal in the end were equal after a value token: by default they differ. -/
theorem clashes_of_sameOutputs {root : String} {tokens : List String}
    (h : (chosen root tokens).sameOutputs = true) : Clashes root tokens := by
  induction tokens using List.reverseRecOn with
  | nil =>
      have hinitial := Args.initial_sameOutputs root
      rw [show chosen root [] = Args.initial root from rfl, hinitial] at h
      cases h
  | append_singleton tokens token ih =>
      rw [clashes_snoc]
      by_cases hvalue : TakesValue token
      · exact Or.inr ⟨hvalue, h⟩
      · rw [chosen_sameOutputs hvalue] at h
        exact Or.inl (ih h)

/-! ## Last wins -/

/-- The name of the token is no flag, or its flag and its value do not go together. -/
def Malformed (token : String) : Prop :=
  ∃ name value, Splits token name value ∧
    ((∀ flag ∈ kFlags, flag.name ≠ name) ∨
      ∃ flag ∈ kFlags, flag.name = name ∧
        (flag.type = .value ∧ value = "" ∨ flag.type ≠ .value ∧ value ≠ ""))

/-- No flag is in the table twice. -/
theorem getFlagType_of_mem {flag : FlagInfo} (h : flag ∈ kFlags) :
    getFlagType flag.name = some flag.type := by
  have hall : ∀ flag ∈ kFlags, getFlagType flag.name = some flag.type := by decide +kernel
  exact hall flag h

theorem Malformed.not_valid {token : String} (h : Malformed token) :
    isValidToken token = false := by
  obtain ⟨name, value, hsplits, hbad⟩ := h
  have hsplit := splitOption_eq_iff.mpr hsplits
  unfold isValidToken
  rw [hsplit]
  split
  · rfl
  · obtain hnone | ⟨flag, hflag, rfl, hbad⟩ := hbad
    · have htype : getFlagType name = none := by
        cases htype : getFlagType name with
        | none => rfl
        | some type => exact absurd rfl (hnone _ (getFlagType_eq_some htype))
      simp [htype]
    · simp only [getFlagType_of_mem hflag]
      obtain ⟨htype, hvalue⟩ | ⟨htype, hvalue⟩ := hbad
      · simp [htype, hvalue]
      · cases htype' : flag.type with
        | value => exact absurd htype' htype
        | bool => simp [hvalue]
        | command => simp [hvalue]

/-- **Argument parsing is last-wins and keeps the outputs apart.** -/
theorem parseArgs_last_wins (root : String) (argv : List String) :
    (∀ args, parseArgs root argv = .ok args → args = chosen root argv.tail ∧
      args.app.products = [] ∧ args.app.recipes = [] ∧
      (args.out.jsonOutPath == args.out.yamlOutPath) = false) ∧
    ∀ token ∈ argv.tail, Malformed token → ∀ args, parseArgs root argv ≠ .ok args := by
  cases argv with
  | nil =>
      constructor
      · intro args h
        cases h
        exact ⟨rfl, rfl, rfl, Args.initial_sameOutputs root⟩
      · intro token h
        cases h
  | cons program tokens =>
      constructor
      · intro args h
        obtain ⟨-, hclash, rfl⟩ := parseArgs_eq_ok_iff.mp h
        refine ⟨rfl, rfl, rfl, ?_⟩
        apply Bool.eq_false_of_not_eq_true
        intro hsame
        exact hclash (clashes_of_sameOutputs hsame)
      · intro token htoken hbad args h
        have hvalid := (parseArgs_eq_ok_iff.mp h).1 token htoken
        rw [hbad.not_valid] at hvalid
        cases hvalid

/-- The last `--json-out` counts, an unknown flag does not pass. -/
theorem parseArgs_last_wins_twice :
    (∃ args, parseArgs "." ["recipes", "--json-out=a", "--no-yaml", "--json-out=b"] = .ok args ∧
      args = chosen "." ["--json-out=a", "--no-yaml", "--json-out=b"] ∧
      args.app.products = [] ∧ args.app.recipes = [] ∧
      (args.out.jsonOutPath == args.out.yamlOutPath) = false) ∧
    (chosen "." ["--json-out=a", "--no-yaml", "--json-out=b"]).out.jsonOutPath = ⟨"b"⟩ ∧
    Malformed "--yaml=on" ∧ ∀ args, parseArgs "." ["recipes", "--yaml=on"] ≠ .ok args := by
  have hbad : Malformed "--yaml=on" :=
    ⟨"--yaml", "on", ⟨by decide, Or.inr rfl⟩,
      Or.inr ⟨⟨"--yaml", .bool⟩, by decide, rfl, Or.inr ⟨by decide, by decide⟩⟩⟩
  have hparse : parseArgs "." ["recipes", "--json-out=a", "--no-yaml", "--json-out=b"] =
      .ok (chosen "." ["--json-out=a", "--no-yaml", "--json-out=b"]) := by decide +kernel
  exact ⟨⟨_, hparse, (parseArgs_last_wins "." _).1 _ hparse⟩, by decide +kernel, hbad,
    (parseArgs_last_wins "." _).2 "--yaml=on" (by simp) hbad⟩

/-! ## Independent options -/

inductive Field where
  | help
  | fullInfo
  | console
  | json
  | yaml
  | selection
  | jsonPath
  | yamlPath
  | dbPath
  | serverConfigPath
  deriving DecidableEq, Repr

/-- The token gives a value to the field. -/
def Field.sets : Field → String → Bool
  | .help, token => (givesHelp token).isSome
  | .fullInfo, token => (givesSwitch "--full-info" "--short" token).isSome
  | .console, token => (givesSwitch "--console" "--no-console" token).isSome
  | .json, token => (givesSwitch "--json" "--no-json" token).isSome
  | .yaml, token => (givesSwitch "--yaml" "--no-yaml" token).isSome
  | .selection, token => (givesSelection token).isSome
  | .jsonPath, token => (givesPath "--json-out" token).isSome
  | .yamlPath, token => (givesPath "--yaml-out" token).isSome
  | .dbPath, token => (givesPath "--db-path" token).isSome
  | .serverConfigPath, token => (givesPath "--server-config" token).isSome

/-- What is chosen depends on the tokens of each field alone. -/
theorem chosen_congr {root : String} {tokens tokens' : List String}
    (h : ∀ field : Field, tokens.filter field.sets = tokens'.filter field.sets) :
    chosen root tokens = chosen root tokens' := by
  have hfield : ∀ (field : Field) {α : Type} (gives : String → Option α) (default : α),
      (∀ token, (gives token).isSome = true → field.sets token = true) →
      lastGiven gives default tokens = lastGiven gives default tokens' := by
    intro field α gives default hsets
    rw [← lastGiven_filter hsets, h field, lastGiven_filter hsets]
  unfold chosen
  rw [hfield .help givesHelp _ fun _ => id, hfield .selection givesSelection _ fun _ => id,
    hfield .fullInfo (givesSwitch "--full-info" "--short") _ fun _ => id,
    hfield .console (givesSwitch "--console" "--no-console") _ fun _ => id,
    hfield .json (givesSwitch "--json" "--no-json") _ fun _ => id,
    hfield .yaml (givesSwitch "--yaml" "--no-yaml") _ fun _ => id,
    hfield .jsonPath (givesPath "--json-out") _ fun _ => id,
    hfield .yamlPath (givesPath "--yaml-out") _ fun _ => id,
    hfield .dbPath (givesPath "--db-path") _ fun _ => id,
    hfield .serverConfigPath (givesPath "--server-config") _ fun _ => id]

/-- After some value token the two output paths chosen so far are equal, and in the end they
differ. -/
def ClashesInPassing (root : String) (tokens : List String) : Prop :=
  Clashes root tokens ∧ (chosen root tokens).sameOutputs = false

/-- Both fail, or both succeed with the same arguments. -/
def SameOutcome (first second : Except String Args) : Prop :=
  ∀ args, first = .ok args ↔ second = .ok args

section

variable {root program program' : String} {tokens tokens' : List String}

theorem parseArgs_of_valid (hvalid : ∀ token ∈ tokens, isValidToken token = true) {args : Args} :
    parseArgs root (program :: tokens) = .ok args ↔
      ¬ Clashes root tokens ∧ args = chosen root tokens := by
  rw [parseArgs_eq_ok_iff]
  exact and_iff_right hvalid

/-- Valid tokens are refused for a clash only. -/
theorem parseArgs_fails_iff (hvalid : ∀ token ∈ tokens, isValidToken token = true) :
    (∀ args, parseArgs root (program :: tokens) ≠ .ok args) ↔ Clashes root tokens := by
  constructor
  · intro h
    by_contra hclash
    exact h _ ((parseArgs_of_valid hvalid).mpr ⟨hclash, rfl⟩)
  · intro hclash args h
    exact ((parseArgs_of_valid hvalid).mp h).1 hclash

/-- Lists that choose the same have the same outcome when both clash or neither does. -/
theorem sameOutcome_iff (hvalid : ∀ token ∈ tokens, isValidToken token = true)
    (hvalid' : ∀ token ∈ tokens', isValidToken token = true)
    (hchosen : chosen root tokens = chosen root tokens') :
    SameOutcome (parseArgs root (program :: tokens)) (parseArgs root (program' :: tokens')) ↔
      (Clashes root tokens ↔ Clashes root tokens') := by
  constructor
  · intro h
    have hargs := h (chosen root tokens)
    rw [parseArgs_of_valid hvalid, parseArgs_of_valid hvalid', hchosen] at hargs
    simpa [not_iff_not] using hargs
  · intro h args
    rw [parseArgs_of_valid hvalid, parseArgs_of_valid hvalid', h, hchosen]

/-- **Independent options commute when no paths clash in passing**, or in both orders some do. -/
theorem options_commute_iff
    (hvalid : ∀ token ∈ tokens, isValidToken token = true) (hperm : tokens.Perm tokens')
    (horder : ∀ field : Field, tokens.filter field.sets = tokens'.filter field.sets) :
    (SameOutcome (parseArgs root (program :: tokens)) (parseArgs root (program' :: tokens')) ↔
      (ClashesInPassing root tokens ↔ ClashesInPassing root tokens')) ∧
    (((∀ args, parseArgs root (program :: tokens) ≠ .ok args) ↔
        (chosen root tokens).sameOutputs = true) ↔
      ¬ ClashesInPassing root tokens) := by
  have hvalid' : ∀ token ∈ tokens', isValidToken token = true := by
    intro token htoken
    exact hvalid token (hperm.mem_iff.mpr htoken)
  have hchosen : chosen root tokens = chosen root tokens' := chosen_congr horder
  have hfinal : (chosen root tokens).sameOutputs = true → Clashes root tokens :=
    clashes_of_sameOutputs
  have hfinal' : (chosen root tokens').sameOutputs = true → Clashes root tokens' :=
    clashes_of_sameOutputs
  rw [sameOutcome_iff hvalid hvalid' hchosen, parseArgs_fails_iff hvalid]
  unfold ClashesInPassing
  rw [← hchosen] at hfinal' ⊢
  -- paths that are equal in the end clash in both orders, and not in passing
  cases hequal : (chosen root tokens).sameOutputs with
  | true => simp [hfinal hequal, hfinal' hequal]
  | false => simp

end

/-- The superseded path `a` clashes in the first order and not in the second. -/
theorem options_do_not_commute :
    let tokens := ["--json-out=a", "--yaml-out=a", "--json-out=b"]
    let tokens' := ["--json-out=a", "--json-out=b", "--yaml-out=a"]
    (∀ token ∈ tokens, isValidToken token = true) ∧ tokens.Perm tokens' ∧
      (∀ field : Field, tokens.filter field.sets = tokens'.filter field.sets) ∧
      (chosen "." tokens).sameOutputs = false ∧
      parseArgs "." ("recipes" :: tokens) =
        .error "JSON and YAML output paths must be different: a == a" ∧
      parseArgs "." ("recipes" :: tokens') = .ok (chosen "." tokens) ∧
      ¬ SameOutcome (parseArgs "." ("recipes" :: tokens))
        (parseArgs "." ("recipes" :: tokens')) := by
  intro tokens tokens'
  have herror : parseArgs "." ("recipes" :: tokens) =
      .error "JSON and YAML output paths must be different: a == a" := by decide +kernel
  have hok : parseArgs "." ("recipes" :: tokens') = .ok (chosen "." tokens) := by decide +kernel
  refine ⟨by decide +kernel, by decide, ?_, by decide +kernel, herror, hok, ?_⟩
  · intro field
    cases field <;> decide +kernel
  · intro h
    have hargs := h (chosen "." tokens)
    rw [herror, hok] at hargs
    simp at hargs

/-- Apart from the default paths, two disjoint choices commute. -/
theorem options_commute_apart :
    let tokens := ["--json-out=a", "--yaml-out=b"]
    let tokens' := ["--yaml-out=b", "--json-out=a"]
    (SameOutcome (parseArgs "." ("recipes" :: tokens)) (parseArgs "." ("recipes" :: tokens')) ↔
      (ClashesInPassing "." tokens ↔ ClashesInPassing "." tokens')) ∧
    (((∀ args, parseArgs "." ("recipes" :: tokens) ≠ .ok args) ↔
        (chosen "." tokens).sameOutputs = true) ↔
      ¬ ClashesInPassing "." tokens) := by
  intro tokens tokens'
  apply options_commute_iff
  · decide +kernel
  · decide
  · intro field
    cases field <;> decide +kernel

end RecipesCore.Io
