import RecipesCore.Types.Kitchen

/-!
# Command-line arguments

`ParseArgs` goes once through the tokens after the program name; a token is looked up in `kFlags`,
split at its first `=`, and sets one field of `Args`. Strings are sequences of bytes, as everywhere
in this development, and `root` is the macro `RECIPES_PROJECT_ROOT`.
-/

namespace RecipesCore.Io

open RecipesCore.Types

/-! ## `std::filesystem::path` -/

/-- A path of a POSIX system is its native text. -/
structure Path where
  native : String
  deriving DecidableEq, Repr

namespace Path

def hasRootDirectory (p : Path) : Bool := p.native.toList.head? = some '/'

/-- What stands between the separators. -/
def pieces (p : Path) : List (List Char) := p.native.toList.splitOn '/'

/-- The elements after the root: separators in a row count once, and one at the end makes an empty
last element. -/
def relativeElements (p : Path) : List (List Char) :=
  let names := p.pieces.filter fun piece => piece ≠ []
  if p.pieces.getLast? = some [] ∧ names ≠ [] then names ++ [[]] else names

/-- `operator==` compares elements, so `a//b` and `a/b` are equal and `a/b` and `a/./b` are not. -/
instance : BEq Path where
  beq p q := p.hasRootDirectory == q.hasRootDirectory && p.relativeElements == q.relativeElements

def hasFilename (p : Path) : Bool :=
  match p.native.toList.getLast? with
  | none => false
  | some c => c ≠ '/'

/-- `p / name`, for a relative `name`. -/
def append (p : Path) (name : String) : Path :=
  if p.hasFilename then ⟨p.native ++ "/" ++ name⟩ else ⟨p.native ++ name⟩

theorem native_append (p : Path) (name : String) : ∃ front : List Char,
    (front = [] ∨ ∃ rest, front = rest ++ ['/']) ∧
      (p.append name).native.toList = front ++ name.toList := by
  cases hfile : p.hasFilename with
  | true => exact ⟨p.native.toList ++ ['/'], Or.inr ⟨_, rfl⟩, by simp [append, hfile]⟩
  | false =>
      refine ⟨p.native.toList, ?_, by simp [append, hfile]⟩
      unfold hasFilename at hfile
      split at hfile
      · next hnone => exact Or.inl (List.getLast?_eq_none_iff.mp hnone)
      · next c hlast =>
          have hc : c = '/' := by simpa using hfile
          rw [hc] at hlast
          obtain ⟨rest, hrest⟩ := List.getLast?_eq_some_iff.mp hlast
          exact Or.inr ⟨rest, hrest⟩

/-- The last element of `p / name` is `name`. -/
theorem getLast?_append {name : String} (p : Path) (hne : name ≠ "") (hname : '/' ∉ name.toList) :
    (p.append name).relativeElements.getLast? = some name.toList := by
  have hsingle : name.toList.splitOn '/' = [name.toList] := List.splitOn_eq_singleton hname
  have hne' : name.toList ≠ [] := by simpa using hne
  obtain ⟨names, hpieces⟩ : ∃ names, (p.append name).pieces = names ++ [name.toList] := by
    unfold pieces
    obtain ⟨front, hfront, heq⟩ := native_append p name
    rw [heq]
    obtain rfl | ⟨rest, rfl⟩ := hfront
    · exact ⟨[], by simpa using hsingle⟩
    · refine ⟨rest.splitOn '/', ?_⟩
      rw [List.append_assoc, List.singleton_append, List.splitOn_append_cons_self, hsingle]
  simp [relativeElements, hpieces, hne']

theorem append_beq_append (p : Path) {name name' : String} (hne : name ≠ "") (hne' : name' ≠ "")
    (hname : '/' ∉ name.toList) (hname' : '/' ∉ name'.toList) (h : name ≠ name') :
    (p.append name == p.append name') = false := by
  have hlast := getLast?_append p hne hname
  have hlast' := getLast?_append p hne' hname'
  have hrel : (p.append name).relativeElements ≠ (p.append name').relativeElements := by
    intro heq
    rw [heq, hlast'] at hlast
    exact h (String.toList_injective (Option.some.inj hlast)).symm
  show ((p.append name).hasRootDirectory == (p.append name').hasRootDirectory &&
    (p.append name).relativeElements == (p.append name').relativeElements) = false
  simp [hrel]

end Path

/-! ## `io::arg::Args` -/

structure Args.AppArgs where
  recipeSelection : RecipeSelection := .all
  dbPath : Path
  serverConfigPath : Path := ⟨""⟩
  products : List Product := []
  recipes : List Recipe := []
  deriving DecidableEq, Repr

structure Args.ArgsOut where
  isFullInfo : Bool := true
  writeConsole : Bool := true
  writeJson : Bool := true
  writeYaml : Bool := true
  jsonOutPath : Path
  yamlOutPath : Path
  deriving DecidableEq, Repr

structure Args where
  showHelp : Bool := false
  app : Args.AppArgs
  out : Args.ArgsOut
  deriving DecidableEq, Repr

def getProjectDataDir (root : String) : Path := (Path.mk root).append "data"

def getProjectOutDir (root : String) : Path := (Path.mk root).append "out"

/-- `Args parsed;`. -/
def Args.initial (root : String) : Args where
  app := { dbPath := (getProjectDataDir root).append "table.db" }
  out :=
    { jsonOutPath := (getProjectOutDir root).append "info.json"
      yamlOutPath := (getProjectOutDir root).append "info.yaml" }

/-! ## Flags and tokens -/

inductive FlagType where
  | bool
  | value
  | command
  deriving DecidableEq, Repr

structure FlagInfo where
  name : String
  type : FlagType
  deriving DecidableEq, Repr

def kFlags : List FlagInfo :=
  [⟨"-h", .bool⟩, ⟨"--help", .bool⟩, ⟨"--full-info", .bool⟩, ⟨"--short", .bool⟩,
    ⟨"--console", .bool⟩, ⟨"--no-console", .bool⟩, ⟨"--json", .bool⟩, ⟨"--no-json", .bool⟩,
    ⟨"--yaml", .bool⟩, ⟨"--no-yaml", .bool⟩, ⟨"--all-recipes", .bool⟩, ⟨"--cookable", .bool⟩,
    ⟨"--json-out", .value⟩, ⟨"--yaml-out", .value⟩, ⟨"--db-path", .value⟩,
    ⟨"--server-config", .value⟩,
    ⟨"--add-products", .command⟩, ⟨"--add-recipes", .command⟩, ⟨"--list-products", .command⟩,
    ⟨"--list-recipes", .command⟩]

def getFlagType (option : String) : Option FlagType :=
  (kFlags.find? fun flag => flag.name = option).map fun flag => flag.type

/-- What stands before and after the first `=`; without one nothing stands after it. -/
def splitAtEquals : List Char → List Char × List Char
  | [] => ([], [])
  | c :: rest =>
      if c = '=' then ([], rest)
      else
        let (option, value) := splitAtEquals rest
        (c :: option, value)

def splitOption (token : String) : String × String :=
  let (option, value) := splitAtEquals token.toList
  (String.ofList option, String.ofList value)

def isValidToken (token : String) : Bool :=
  if token.toList.head? ≠ some '-' then false
  else
    let (option, value) := splitOption token
    match getFlagType option with
    | none => false
    | some .value => value ≠ ""
    | some .bool | some .command => value = ""

/-! ## Setting a field -/

namespace Args

def setHelp (helpFlag : Bool) (args : Args) : Args := { args with showHelp := helpFlag }

/-- A write through `OutMutable`. -/
def setOut (change : ArgsOut → ArgsOut) (args : Args) : Args := { args with out := change args.out }

/-- A write through `AppMutable`. -/
def setApp (change : AppArgs → AppArgs) (args : Args) : Args := { args with app := change args.app }

end Args

def setBoolFlag (args : Args) (option : String) : Args :=
  let args := if option = "-h" ∨ option = "--help" then args.setHelp true else args
  let args :=
    if option = "--full-info" then args.setOut fun out => { out with isFullInfo := true } else args
  let args :=
    if option = "--short" then args.setOut fun out => { out with isFullInfo := false } else args
  let args :=
    if option = "--console" then args.setOut fun out => { out with writeConsole := true } else args
  let args :=
    if option = "--no-console" then args.setOut fun out => { out with writeConsole := false }
    else args
  let args :=
    if option = "--json" then args.setOut fun out => { out with writeJson := true } else args
  let args :=
    if option = "--no-json" then args.setOut fun out => { out with writeJson := false } else args
  let args :=
    if option = "--yaml" then args.setOut fun out => { out with writeYaml := true } else args
  let args :=
    if option = "--no-yaml" then args.setOut fun out => { out with writeYaml := false } else args
  let args :=
    if option = "--all-recipes" then args.setApp fun app => { app with recipeSelection := .all }
    else args
  let args :=
    if option = "--cookable" then args.setApp fun app => { app with recipeSelection := .cookable }
    else args
  args

/-- The chain of comparisons in `SetValueFlag`. -/
def storeValue (args : Args) (option value : String) : Args :=
  if option = "--json-out" then args.setOut fun out => { out with jsonOutPath := ⟨value⟩ }
  else if option = "--yaml-out" then args.setOut fun out => { out with yamlOutPath := ⟨value⟩ }
  else if option = "--db-path" then args.setApp fun app => { app with dbPath := ⟨value⟩ }
  else if option = "--server-config" then
    args.setApp fun app => { app with serverConfigPath := ⟨value⟩ }
  else args

/-- `args.Out().json_out_path == args.Out().yaml_out_path`. -/
def Args.sameOutputs (args : Args) : Bool := args.out.jsonOutPath == args.out.yamlOutPath

def setValueFlag (args : Args) (option value : String) : Except String Args :=
  let args := storeValue args option value
  if args.sameOutputs then
    .error ("JSON and YAML output paths must be different: " ++ args.out.jsonOutPath.native ++
      " == " ++ args.out.yamlOutPath.native)
  else .ok args

/-! ## `ParseArgs` -/

/-- The body of the loop. -/
def parseToken (args : Args) (token : String) : Except String Args :=
  if isValidToken token = false then .error ("Unknown argument: " ++ token)
  else
    let (option, value) := splitOption token
    match getFlagType option with
    | none => .error ("Unknown type for argument: " ++ option)
    | some .value => setValueFlag args option value
    | some .bool => .ok (setBoolFlag args option)
    | some .command => .ok args

def parseArgs (root : String) : List String → Except String Args
  | [] => .ok (Args.initial root)
  | _ :: tokens => tokens.foldlM parseToken (Args.initial root)

/-! ## Facts about the pieces -/

/-- The default outputs differ, whatever the project root. -/
theorem Args.initial_sameOutputs (root : String) : (Args.initial root).sameOutputs = false :=
  Path.append_beq_append _ (by decide) (by decide) (by decide) (by decide) (by decide)

/-- `name` is what stands before the first `=` and `value` what stands after it. -/
def Splits (token name value : String) : Prop :=
  '=' ∉ name.toList ∧ (token = name ∧ value = "" ∨ token = name ++ "=" ++ value)

theorem splitAtEquals_eq_iff {token name value : List Char} :
    splitAtEquals token = (name, value) ↔
      '=' ∉ name ∧ (token = name ∧ value = [] ∨ token = name ++ '=' :: value) := by
  induction token generalizing name with
  | nil => cases name <;> simp [splitAtEquals, eq_comm]
  | cons c rest ih =>
      simp only [splitAtEquals]
      by_cases hc : c = '='
      · rw [if_pos hc, hc]
        cases name <;> grind
      · rw [if_neg hc]
        cases name with
        | nil => grind
        | cons d name =>
            have hrest := @ih name
            grind

theorem splitOption_eq_iff {token name value : String} :
    splitOption token = (name, value) ↔ Splits token name value := by
  have hlist : splitOption token = (name, value) ↔
      splitAtEquals token.toList = (name.toList, value.toList) := by
    simp only [splitOption, Prod.ext_iff, ← String.toList_inj, String.toList_ofList]
  rw [hlist, splitAtEquals_eq_iff, Splits]
  simp only [← String.toList_inj, String.toList_append, String.toList_empty]
  simp

theorem getFlagType_eq_some {option : String} {type : FlagType}
    (h : getFlagType option = some type) : ⟨option, type⟩ ∈ kFlags := by
  simp only [getFlagType, Option.map_eq_some_iff] at h
  obtain ⟨flag, hfind, rfl⟩ := h
  have hname : flag.name = option := by simpa using List.find?_some hfind
  rw [← hname]
  exact List.mem_of_find?_eq_some hfind

end RecipesCore.Io
