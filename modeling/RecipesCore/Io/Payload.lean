import RecipesCore.Io.Report
import RecipesCore.Logic.Program
import RecipesCore.Types.Calendar

/-!
# What a writer does to its file

The four writers of a file, statement by statement: the directories, the opening with truncation,
the serializer that writes into the open file, and the check of the stream. `Io.Report` looks at a
writer from outside; `runOn_writeItems_report` is the connection.

The header says that the file is created or truncated only on successful serialization. It is
opened before the serializer runs, so a failure finds the previous report gone.
-/

namespace RecipesCore.Io

open RecipesCore.Types RecipesCore.Logic RecipesCore.Logic.Program

/-! ## Views -/

structure ProductView where
  name : String
  amount : Int32
  dimension : String
  manufacture : Option String
  expiration : Option String
  deriving DecidableEq, Repr

structure RecipeView where
  name : String
  ingredients : List ProductView
  deriving DecidableEq, Repr

/-- `std::format("{:%F}", date)` pads the year to four characters, as `toDateString` does. -/
def formatDate (date : Option SysDays) : Option String := date.map toDateString

def toProductView (product : Product) : ProductView where
  name := product.name
  amount := product.amount
  dimension := product.dimension.getDimensionInString
  manufacture := formatDate product.dates.manufacture
  expiration := formatDate product.dates.expiration

def buildProductViews (products : List Product) : List ProductView := products.map toProductView

def buildRecipeViews (recipes : List Recipe) : List RecipeView :=
  recipes.map fun recipe =>
    { name := recipe.name, ingredients := buildProductViews recipe.ingredients }

/-- What the serializer is given. -/
inductive Value where
  | products (views : List ProductView)
  | recipes (views : List RecipeView)
  deriving DecidableEq, Repr

def Items.value : Items → Value
  | .products items => .products (buildProductViews items)
  | .recipes items => .recipes (buildRecipeViews items)

/-! ## Files -/

/-- `glz::write_json` and `glz::write_yaml`: the text, or what came out before the failure. -/
structure Serializers where
  writeJson : Value → Except String String
  writeYaml : Value → Except String String

/-- How the file system answers one writer. -/
structure Answers where
  createDirectories : Option ErrorCode := none
  isOpen : Bool := true
  /-- The stream fails, with this many characters in the file. -/
  streamFails : Option Nat := none
  deriving DecidableEq, Repr

/-- What gets into the file of what is written to the stream. -/
def Answers.reaching (answers : Answers) (text : String) : String :=
  match answers.streamFails with
  | none => text
  | some length => String.ofList (text.toList.take length)

structure FileSystem where
  files : Path → Option String
  /-- How often each file was created or truncated. -/
  truncations : Path → Nat := fun _ => 0

namespace FileSystem

/-- `std::ios::trunc` creates the file when there is none. -/
def truncate (path : Path) (fs : FileSystem) : FileSystem where
  files file := if file = path then some "" else fs.files file
  truncations file := if file = path then fs.truncations file + 1 else fs.truncations file

def append (path : Path) (text : String) (fs : FileSystem) : FileSystem :=
  { fs with files := fun file =>
      if file = path then (fs.files file).map (· ++ text) else fs.files file }

end FileSystem

/-! ## Writers -/

/-- The `return std::unexpected(…)` statements. -/
inductive Failure where
  | emptyPath
  | directories (code : ErrorCode)
  | notOpen
  | serializer
  | stream
  deriving DecidableEq, Repr

def Failure.code : Failure → ErrorCode
  | .emptyPath => .invalidArgument
  | .directories code => code
  | .notOpen => .noSuchFileOrDirectory
  | .serializer => .invalidArgument
  | .stream => .ioError

/-- `fs::create_directories(parent_path, ec)`. -/
def createDirectories (answers : Answers) (outPath : Path) : Prog FileSystem Failure Unit :=
  if outPath.hasParentPath then
    match answers.createDirectories with
    | some code => throw (.directories code)
    | none => pure ()
  else pure ()

/-- `std::ofstream out{out_path, std::ios::out | std::ios::trunc}`. -/
def openTruncating (answers : Answers) (outPath : Path) : Prog FileSystem Failure Unit :=
  if answers.isOpen then modify (FileSystem.truncate outPath) else throw .notOpen

/-- The serializer writes through the stream, up to where it fails. -/
def serialize (write : Value → Except String String) (answers : Answers) (value : Value)
    (outPath : Path) : Prog FileSystem Failure Unit :=
  match write value with
  | .error emitted => do
      modify (FileSystem.append outPath (answers.reaching emitted))
      throw .serializer
  | .ok text => modify (FileSystem.append outPath (answers.reaching text))

/-- `stream.fail()`. -/
def checkStream (answers : Answers) : Prog FileSystem Failure Unit :=
  if answers.streamFails.isSome then throw .stream else pure ()

/-- `WriteJsonPayload` and `WriteYamlPayload` but for the serializer. -/
def writeValue (write : Value → Except String String) (answers : Answers) (value : Value)
    (outPath : Path) : Prog FileSystem Failure Unit := do
  createDirectories answers outPath
  openTruncating answers outPath
  serialize write answers value outPath
  checkStream answers

namespace Json

def writeJsonPayload (serializers : Serializers) :
    Answers → Value → Path → Prog FileSystem Failure Unit :=
  writeValue serializers.writeJson

def writeProductsJson (serializers : Serializers) (answers : Answers) (products : List Product)
    (outPath : Path) : Prog FileSystem Failure Unit :=
  if outPath.native = "" then throw .emptyPath
  else writeJsonPayload serializers answers (.products (buildProductViews products)) outPath

def writeRecipesJson (serializers : Serializers) (answers : Answers) (recipes : List Recipe)
    (outPath : Path) : Prog FileSystem Failure Unit :=
  if outPath.native = "" then throw .emptyPath
  else writeJsonPayload serializers answers (.recipes (buildRecipeViews recipes)) outPath

def writeItemsJson (serializers : Serializers) (answers : Answers) :
    Items → Path → Prog FileSystem Failure Unit
  | .products products => writeProductsJson serializers answers products
  | .recipes recipes => writeRecipesJson serializers answers recipes

end Json

namespace Yaml

def writeYamlPayload (serializers : Serializers) :
    Answers → Value → Path → Prog FileSystem Failure Unit :=
  writeValue serializers.writeYaml

def writeProductsYaml (serializers : Serializers) (answers : Answers) (products : List Product)
    (outPath : Path) : Prog FileSystem Failure Unit :=
  if outPath.native = "" then throw .emptyPath
  else writeYamlPayload serializers answers (.products (buildProductViews products)) outPath

def writeRecipesYaml (serializers : Serializers) (answers : Answers) (recipes : List Recipe)
    (outPath : Path) : Prog FileSystem Failure Unit :=
  if outPath.native = "" then throw .emptyPath
  else writeYamlPayload serializers answers (.recipes (buildRecipeViews recipes)) outPath

def writeItemsYaml (serializers : Serializers) (answers : Answers) :
    Items → Path → Prog FileSystem Failure Unit
  | .products products => writeProductsYaml serializers answers products
  | .recipes recipes => writeRecipesYaml serializers answers recipes

end Yaml

inductive Format where
  | json
  | yaml
  deriving DecidableEq, Repr

def Serializers.write (serializers : Serializers) : Format → Value → Except String String
  | .json => serializers.writeJson
  | .yaml => serializers.writeYaml

def writeItems (serializers : Serializers) (answers : Answers) :
    Format → Items → Path → Prog FileSystem Failure Unit
  | .json => Json.writeItemsJson serializers answers
  | .yaml => Yaml.writeItemsYaml serializers answers

/-! ## What a call leaves -/

/-- The writer gets as far as opening its file. -/
def Opens (answers : Answers) (outPath : Path) : Prop :=
  outPath.native ≠ "" ∧ (outPath.hasParentPath = true → answers.createDirectories = none) ∧
    answers.isOpen = true

instance (answers : Answers) (outPath : Path) : Decidable (Opens answers outPath) :=
  inferInstanceAs (Decidable (_ ∧ _ ∧ _))

/-- A failed serialization leaves the file as it was, and the file is created or truncated only
when serialization succeeds. -/
structure KeepsReport (serialized : Except String String) (outPath : Path) (fs : FileSystem)
    (outcome : Except Failure Unit × FileSystem) : Prop where
  unchanged : outcome.1 = .error .serializer → outcome.2.files outPath = fs.files outPath
  truncated : outcome.2.truncations outPath ≠ fs.truncations outPath →
    ∃ text, serialized = .ok text

/-! ## Seen from outside -/

/-- The answers as `Io.Report` has them. -/
def Answers.disk (answers : Answers) (serialized : Except String String) : Disk where
  createDirectories := answers.createDirectories
  isOpen := answers.isOpen
  serializerFails :=
    match serialized with
    | .error emitted => some (answers.reaching emitted)
    | .ok _ => none
  streamFails :=
    match serialized with
    | .error _ => none
    | .ok text => if answers.streamFails.isSome then some (answers.reaching text) else none

/-- The text of a value that the serializer does not fail on. -/
def Serializers.text (serializers : Serializers) (format : Format) (items : Items) : String :=
  match serializers.write format items.value with
  | .error _ => ""
  | .ok text => text

def Serializers.formats (serializers : Serializers) (printProducts : List Product → String)
    (printRecipes : List Recipe → Bool → String) : Formats where
  printProducts := printProducts
  printRecipes := printRecipes
  productsJson products := serializers.text .json (.products products)
  recipesJson recipes := serializers.text .json (.recipes recipes)
  productsYaml products := serializers.text .yaml (.products products)
  recipesYaml recipes := serializers.text .yaml (.recipes recipes)

/-- The writer of `Io.Report` for a format. -/
def reportItemsAs (formats : Formats) (disk : Disk) :
    Format → Items → Path → Option String × Except ErrorCode Unit
  | .json => writeItemsJson formats disk
  | .yaml => writeItemsYaml formats disk

section

variable {serializers : Serializers} {answers : Answers} {format : Format} {items : Items}
  {outPath file : Path} {fs : FileSystem} {write : Value → Except String String} {value : Value}
  {text : String} {printProducts : List Product → String}
  {printRecipes : List Recipe → Bool → String}

/-- The writers differ in the serializer alone. -/
theorem writeItems_eq : writeItems serializers answers format items outPath =
    if outPath.native = "" then throw .emptyPath
    else writeValue (serializers.write format) answers items.value outPath := by
  cases format <;> cases items <;> rfl

theorem reportItemsAs_eq {disk : Disk} :
    reportItemsAs (serializers.formats printProducts printRecipes) disk format items outPath =
      writeFile disk (serializers.text format items) outPath := by
  cases format <;> cases items <;> rfl

theorem append_truncate_files : ((fs.truncate outPath).append outPath text).files file =
    if file = outPath then some text else fs.files file := by
  by_cases h : file = outPath
  · simp [FileSystem.append, FileSystem.truncate, h]
  · simp [FileSystem.append, FileSystem.truncate, h]

theorem createDirectories_eq_pure
    (h : outPath.hasParentPath = true → answers.createDirectories = none) :
    createDirectories answers outPath = pure () := by
  unfold createDirectories
  split
  · next hparent => rw [h hparent]
  · rfl

theorem disk_createDirectories_eq_none {serialized : Except String String}
    (h : outPath.hasParentPath = true → answers.createDirectories = none) :
    (if outPath.hasParentPath then (answers.disk serialized).createDirectories else none) =
      none := by
  split
  · next hparent => exact h hparent
  · rfl

/-- A writer that does not come to opening its file changes nothing, and the serializer is not to
blame. -/
theorem runOn_writeItems_of_not_opens (serializers : Serializers) (format : Format) (items : Items)
    (fs : FileSystem) (h : ¬ Opens answers outPath) :
    ∃ failure, failure ≠ .serializer ∧
      (∀ serialized text,
        writeFile (answers.disk serialized) text outPath = (none, .error failure.code)) ∧
      runOn (writeItems serializers answers format items outPath) fs = (.error failure, fs) := by
  rw [writeItems_eq]
  unfold writeFile writePayload
  by_cases hpath : outPath.native = ""
  · rw [if_pos hpath]
    refine ⟨.emptyPath, by simp, ?_, rfl⟩
    intro _ _
    rw [if_pos hpath]
    rfl
  rw [if_neg hpath]
  unfold writeValue
  by_cases hdirectories : outPath.hasParentPath = true → answers.createDirectories = none
  · have hopen : answers.isOpen ≠ true := fun hopen => h ⟨hpath, hdirectories, hopen⟩
    refine ⟨.notOpen, by simp, ?_, ?_⟩
    · intro serialized _
      rw [if_neg hpath, disk_createDirectories_eq_none hdirectories]
      exact if_pos (Bool.eq_false_of_not_eq_true hopen)
    · rw [createDirectories_eq_pure hdirectories, openTruncating, if_neg hopen]
      rfl
  · obtain ⟨hparent, hcode⟩ := Classical.not_imp.mp hdirectories
    obtain ⟨code, hcode⟩ := Option.ne_none_iff_exists'.mp hcode
    refine ⟨.directories code, by simp, ?_, ?_⟩
    · intro serialized _
      rw [if_neg hpath, if_pos hparent, show (answers.disk serialized).createDirectories = some code
        from hcode]
      rfl
    · rw [createDirectories, if_pos hparent, hcode]
      rfl

theorem writeFile_of_opens (h : Opens answers outPath) (serialized : Except String String) :
    writeFile (answers.disk serialized) text outPath =
      match (answers.disk serialized).serializerFails with
      | some written => (some written, .error .invalidArgument)
      | none =>
          match (answers.disk serialized).streamFails with
          | some written => (some written, .error .ioError)
          | none => (some text, .ok ()) := by
  obtain ⟨hpath, hdirectories, hopen⟩ := h
  have hout : ¬ (answers.disk serialized).isOpen = false := by
    show ¬ answers.isOpen = false
    simp [hopen]
  rw [writeFile, if_neg hpath, writePayload, disk_createDirectories_eq_none hdirectories]
  exact if_neg hout

/-- From the opening on. -/
theorem runOn_writeItems_of_opens (h : Opens answers outPath) :
    runOn (writeItems serializers answers format items outPath) fs =
      runOn (do serialize (serializers.write format) answers items.value outPath
                checkStream answers) (fs.truncate outPath) := by
  obtain ⟨hpath, hdirectories, hopen⟩ := h
  rw [writeItems_eq, if_neg hpath, writeValue, createDirectories_eq_pure hdirectories,
    openTruncating, if_pos hopen]
  rfl

theorem runOn_writeItems_of_error {emitted : String} (h : Opens answers outPath)
    (hwrite : serializers.write format items.value = .error emitted) :
    runOn (writeItems serializers answers format items outPath) fs =
      (.error .serializer,
        (fs.truncate outPath).append outPath (answers.reaching emitted)) := by
  rw [runOn_writeItems_of_opens h, serialize, hwrite]
  rfl

theorem runOn_writeItems_of_written (h : Opens answers outPath)
    (hwrite : serializers.write format items.value = .ok text) :
    runOn (writeItems serializers answers format items outPath) fs =
      (if answers.streamFails.isSome then .error .stream else .ok (),
        (fs.truncate outPath).append outPath (answers.reaching text)) := by
  rw [runOn_writeItems_of_opens h, serialize, hwrite]
  show runOn (checkStream answers) _ = _
  unfold checkStream
  split <;> rfl

/-- **The previous report survives exactly when the serializer does not fail on an open file.** -/
theorem keepsReport_iff :
    KeepsReport (serializers.write format items.value) outPath fs
        (runOn (writeItems serializers answers format items outPath) fs) ↔
      (Opens answers outPath → ∃ text, serializers.write format items.value = .ok text) := by
  by_cases hopens : Opens answers outPath
  · cases hwrite : serializers.write format items.value with
    | ok text =>
        rw [runOn_writeItems_of_written hopens hwrite]
        refine iff_of_true ⟨?_, fun _ => ⟨text, rfl⟩⟩ fun _ => ⟨text, rfl⟩
        intro herror
        split at herror <;> cases herror
    | error emitted =>
        rw [runOn_writeItems_of_error hopens hwrite]
        refine iff_of_false ?_ fun h => ?_
        · intro hkeeps
          -- The truncation alone breaks the documentation, whatever was in the file.
          obtain ⟨text, htext⟩ := hkeeps.truncated (by
            simp [FileSystem.append, FileSystem.truncate])
          cases htext
        · obtain ⟨text, htext⟩ := h hopens
          cases htext
  · obtain ⟨failure, hfailure, -, hrun⟩ := runOn_writeItems_of_not_opens serializers format items fs
      hopens
    rw [hrun]
    refine iff_of_true ⟨?_, fun h => absurd rfl h⟩ fun h => absurd h hopens
    intro herror
    exact absurd (Except.error.inj herror) hfailure

/-- The serializer fails behind the first bracket, and the report of the last call is gone. -/
theorem failed_json_destroys_report :
    let serializers : Serializers := ⟨fun _ => .error "[", fun _ => .error "["⟩
    let fs : FileSystem :=
      { files := fun file => if file = ⟨"info.json"⟩ then some "[]" else none }
    let items : Items := .products [{ name := "Milk", amount := 1, dimension := .liter }]
    let outcome := runOn (writeItems serializers {} .json items ⟨"info.json"⟩) fs
    outcome.1 = .error .serializer ∧ fs.files ⟨"info.json"⟩ = some "[]" ∧
      outcome.2.files ⟨"info.json"⟩ = some "[" ∧
      ¬ KeepsReport (serializers.write .json items.value) ⟨"info.json"⟩ fs outcome := by
  intro serializers fs items outcome
  have hbefore : fs.files ⟨"info.json"⟩ = some "[]" := by decide
  have hafter : outcome.2.files ⟨"info.json"⟩ = some "[" := by decide +kernel
  refine ⟨by decide +kernel, hbefore, hafter, ?_⟩
  intro hkeeps
  have hunchanged := hkeeps.unchanged (by decide +kernel)
  rw [hbefore, hafter] at hunchanged
  exact absurd hunchanged (by decide)

/-- A call is what `Io.Report` says it is, and touches no other file. -/
theorem runOn_writeItems_report :
    let outcome := runOn (writeItems serializers answers format items outPath) fs
    let report := reportItemsAs (serializers.formats printProducts printRecipes)
      (answers.disk (serializers.write format items.value)) format items outPath
    outcome.1.mapError Failure.code = report.2 ∧
      outcome.2.files = (({ files := fs.files } : Outputs).leave outPath report.1).files := by
  intro outcome report
  have hreport : report = _ := reportItemsAs_eq
  rw [hreport]
  by_cases hopens : Opens answers outPath
  · rw [writeFile_of_opens hopens]
    unfold Serializers.text Answers.disk
    cases hwrite : serializers.write format items.value with
    | error emitted =>
        rw [show outcome = _ from runOn_writeItems_of_error hopens hwrite]
        exact ⟨rfl, funext fun file => append_truncate_files⟩
    | ok text =>
        rw [show outcome = _ from runOn_writeItems_of_written hopens hwrite]
        cases hstream : answers.streamFails with
        | some length =>
            exact ⟨rfl, funext fun file => append_truncate_files⟩
        | none =>
            have htext : answers.reaching text = text := by rw [Answers.reaching, hstream]
            rw [htext]
            exact ⟨rfl, funext fun file => append_truncate_files⟩
  · obtain ⟨failure, -, hfile, hrun⟩ := runOn_writeItems_of_not_opens serializers format items fs
      hopens
    rw [hfile, show outcome = _ from hrun]
    exact ⟨rfl, rfl⟩

end

end RecipesCore.Io
