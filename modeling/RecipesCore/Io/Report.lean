import Mathlib.Data.List.Perm.Basic
import RecipesCore.Io.Args

/-!
# Reports, one after the other and in parallel

`ReportsItems` writes the enabled outputs in turn and stops at the first error;
`ParallelReportsItems` starts a task for each and looks at the results afterwards. The texts of the
formats and the answers of the file system are parameters, and a task writes nothing but its own
output.
-/

namespace RecipesCore.Io

open RecipesCore.Types

/-! ## Writers -/

inductive ErrorCode where
  | invalidArgument
  | noSuchFileOrDirectory
  | ioError
  /-- What `create_directories` reports. -/
  | system (value : Int)
  deriving DecidableEq, Repr

/-- `std::span<const Tv>`, where `Tv` is a product or a recipe. -/
inductive Items where
  | products (products : List Product)
  | recipes (recipes : List Recipe)
  deriving DecidableEq, Repr

/-- The text of the items in each format. -/
structure Formats where
  printProducts : List Product → String
  printRecipes : List Recipe → (isFullInfo : Bool) → String
  productsJson : List Product → String
  recipesJson : List Recipe → String
  productsYaml : List Product → String
  recipesYaml : List Recipe → String

/-- How the file system and the serializer answer one writer. -/
structure Disk where
  createDirectories : Option ErrorCode := none
  isOpen : Bool := true
  /-- The serializer fails, with this much written. -/
  serializerFails : Option String := none
  /-- The stream fails, with this much written. -/
  streamFails : Option String := none
  deriving DecidableEq, Repr

/-- What was written by one call. -/
structure Outputs where
  console : Option String := none
  files : Path → Option String := fun _ => none

namespace Outputs

def print (text : String) (outputs : Outputs) : Outputs := { outputs with console := some text }

def put (path : Path) (text : String) (outputs : Outputs) : Outputs :=
  { outputs with files := fun file => if file = path then some text else outputs.files file }

end Outputs

/-- The path names more than a file. -/
def Path.hasParentPath (p : Path) : Bool := '/' ∈ p.native.toList

/-- `WriteJsonPayload`, `WriteYamlPayload`: what is written to the file, if it is opened at all,
and the result. -/
def writePayload (disk : Disk) (text : String) (outPath : Path) :
    Option String × Except ErrorCode Unit :=
  match if outPath.hasParentPath then disk.createDirectories else none with
  | some code => (none, .error code)
  | none =>
      if disk.isOpen = false then (none, .error .noSuchFileOrDirectory)
      else
        match disk.serializerFails with
        | some written => (some written, .error .invalidArgument)
        | none =>
            match disk.streamFails with
            | some written => (some written, .error .ioError)
            | none => (some text, .ok ())

/-- The four writers of a file check the path first. -/
def writeFile (disk : Disk) (text : String) (outPath : Path) :
    Option String × Except ErrorCode Unit :=
  if outPath.native = "" then (none, .error .invalidArgument) else writePayload disk text outPath

def printItems (formats : Formats) (items : Items) (isFullInfo : Bool) : String :=
  match items with
  | .products products => formats.printProducts products
  | .recipes recipes => formats.printRecipes recipes isFullInfo

def writeProductsJson (formats : Formats) (disk : Disk) (products : List Product) :
    Path → Option String × Except ErrorCode Unit :=
  writeFile disk (formats.productsJson products)

def writeRecipesJson (formats : Formats) (disk : Disk) (recipes : List Recipe) :
    Path → Option String × Except ErrorCode Unit :=
  writeFile disk (formats.recipesJson recipes)

def writeProductsYaml (formats : Formats) (disk : Disk) (products : List Product) :
    Path → Option String × Except ErrorCode Unit :=
  writeFile disk (formats.productsYaml products)

def writeRecipesYaml (formats : Formats) (disk : Disk) (recipes : List Recipe) :
    Path → Option String × Except ErrorCode Unit :=
  writeFile disk (formats.recipesYaml recipes)

def writeItemsJson (formats : Formats) (disk : Disk) :
    Items → Path → Option String × Except ErrorCode Unit
  | .products products => writeProductsJson formats disk products
  | .recipes recipes => writeRecipesJson formats disk recipes

def writeItemsYaml (formats : Formats) (disk : Disk) :
    Items → Path → Option String × Except ErrorCode Unit
  | .products products => writeProductsYaml formats disk products
  | .recipes recipes => writeRecipesYaml formats disk recipes

/-- What a writer left in its file, if it opened it. -/
def Outputs.leave (path : Path) (written : Option String) (outputs : Outputs) : Outputs :=
  match written with
  | none => outputs
  | some text => outputs.put path text

/-! ## One after the other -/

section

variable (formats : Formats) (jsonDisk yamlDisk : Disk)

def writeReports (items : Items) (args : Args.ArgsOut) : Except ErrorCode Unit × Outputs :=
  let outputs : Outputs := {}
  let outputs :=
    if args.writeConsole then outputs.print (printItems formats items args.isFullInfo) else outputs
  let (jsonResult, outputs) :=
    if args.writeJson then
      let (written, result) := writeItemsJson formats jsonDisk items args.jsonOutPath
      (result, outputs.leave args.jsonOutPath written)
    else (.ok (), outputs)
  match jsonResult with
  | .error code => (.error code, outputs)
  | .ok () =>
      if args.writeYaml then
        let (written, result) := writeItemsYaml formats yamlDisk items args.yamlOutPath
        (result, outputs.leave args.yamlOutPath written)
      else (.ok (), outputs)

/-- What `ReportRecipes` and `ReportProducts` share. -/
def reportItems (items : Items) (args : Args.ArgsOut) : Except ErrorCode Unit × Outputs :=
  if !args.writeConsole && !args.writeJson && !args.writeYaml then (.error .invalidArgument, {})
  else writeReports formats jsonDisk yamlDisk items args

def reportRecipes (recipes : List Recipe) : Args.ArgsOut → Except ErrorCode Unit × Outputs :=
  reportItems formats jsonDisk yamlDisk (.recipes recipes)

def reportProducts (products : List Product) : Args.ArgsOut → Except ErrorCode Unit × Outputs :=
  reportItems formats jsonDisk yamlDisk (.products products)

def reportsItems : Items → Args.ArgsOut → Except ErrorCode Unit × Outputs
  | .products products => reportProducts formats jsonDisk yamlDisk products
  | .recipes recipes => reportRecipes formats jsonDisk yamlDisk recipes

/-! ## In parallel -/

inductive Task where
  | console
  | json
  | yaml
  deriving DecidableEq, Repr

/-- The tasks that are launched, in that order. The file tasks are launched whatever the flags. -/
def launched (args : Args.ArgsOut) : List Task :=
  (if args.writeConsole then [.console] else []) ++ [.json, .yaml]

/-- What a task does. -/
def Task.run (items : Items) (args : Args.ArgsOut) (outputs : Outputs) : Task → Outputs
  | .console => outputs.print (printItems formats items args.isFullInfo)
  | .json => outputs.leave args.jsonOutPath
      (writeItemsJson formats jsonDisk items args.jsonOutPath).1
  | .yaml => outputs.leave args.yamlOutPath
      (writeItemsYaml formats yamlDisk items args.yamlOutPath).1

/-- `schedule` is the order the tasks come to write in. An early return waits for the futures that
are left. -/
def parallelReportsItems (schedule : List Task) (items : Items) (args : Args.ArgsOut) :
    Except ErrorCode Unit × Outputs :=
  let outputs := schedule.foldl (Task.run formats jsonDisk yamlDisk items args) {}
  match (writeItemsJson formats jsonDisk items args.jsonOutPath).2 with
  | .error code => (.error code, outputs)
  | .ok () =>
      match (writeItemsYaml formats yamlDisk items args.yamlOutPath).2 with
      | .error code => (.error code, outputs)
      | .ok () => (.ok (), outputs)

end

/-! ## Agreement -/

/-- The two versions give the same result and, when it is success, the same outputs; neither writes
a disabled format. -/
structure Agree (args : Args.ArgsOut) (plain parallel : Except ErrorCode Unit × Outputs) :
    Prop where
  result : parallel.1 = plain.1
  outputs : plain.1 = .ok () → parallel.2 = plain.2
  jsonDisabled : args.writeJson = false →
    plain.2.files args.jsonOutPath = none ∧ parallel.2.files args.jsonOutPath = none
  yamlDisabled : args.writeYaml = false →
    plain.2.files args.yamlOutPath = none ∧ parallel.2.files args.yamlOutPath = none
  noneEnabled : args.writeConsole = false → args.writeJson = false → args.writeYaml = false →
    plain.1 = .error .invalidArgument ∧ parallel.1 = .error .invalidArgument

theorem agree_iff {args : Args.ArgsOut} {plain parallel : Except ErrorCode Unit × Outputs} :
    Agree args plain parallel ↔ parallel.1 = plain.1 ∧ (plain.1 = .ok () → parallel.2 = plain.2) ∧
      (args.writeJson = false →
        plain.2.files args.jsonOutPath = none ∧ parallel.2.files args.jsonOutPath = none) ∧
      (args.writeYaml = false →
        plain.2.files args.yamlOutPath = none ∧ parallel.2.files args.yamlOutPath = none) ∧
      (args.writeConsole = false → args.writeJson = false → args.writeYaml = false →
        plain.1 = .error .invalidArgument ∧ parallel.1 = .error .invalidArgument) :=
  ⟨fun h => ⟨h.result, h.outputs, h.jsonDisabled, h.yamlDisabled, h.noneEnabled⟩,
    fun h => ⟨h.1, h.2.1, h.2.2.1, h.2.2.2.1, h.2.2.2.2⟩⟩

/-- Both files are enabled. Otherwise the writer of a disabled one must fail before it opens its
file, and its error must be the one that is due anyway. -/
def AgreesWhen (args : Args.ArgsOut) (json yaml : Option String × Except ErrorCode Unit) : Prop :=
  match args.writeJson, args.writeYaml with
  | true, true => True
  | true, false => (∃ code, json.2 = .error code) ∧ ∃ code, yaml = (none, .error code)
  | false, true => ∃ code, json = (none, .error code) ∧ yaml.2 = .error code
  | false, false => args.writeConsole = false ∧ json = (none, .error .invalidArgument) ∧
      ∃ code, yaml = (none, .error code)

theorem beq_path_false {p q : Path} (h : (p == q) = false) : p ≠ q := by
  intro heq
  rw [heq] at h
  have hrefl : (q == q) = true := by
    show (q.hasRootDirectory == q.hasRootDirectory &&
      q.relativeElements == q.relativeElements) = true
    simp
  rw [hrefl] at h
  cases h

section

variable {formats : Formats} {jsonDisk yamlDisk disk : Disk} {items : Items} {args : Args.ArgsOut}
  {schedule : List Task} {outputs : Outputs} {path path' file : Path}
  {written written' : Option String} {text : String}

/-- A writer that succeeds has written its text. -/
theorem writeFile_ok (h : (writeFile disk text path).2 = .ok ()) :
    (writeFile disk text path).1 = some text := by
  unfold writeFile writePayload at *
  grind

theorem leave_files : (outputs.leave path written).files file =
    if file = path then written.or (outputs.files file) else outputs.files file := by
  cases written with
  | none => simp [Outputs.leave]
  | some text => simp [Outputs.leave, Outputs.put]

theorem print_leave :
    (outputs.print text).leave path written = (outputs.leave path written).print text := by
  cases written <;> rfl

theorem leave_comm (h : path ≠ path') : (outputs.leave path written).leave path' written' =
    (outputs.leave path' written').leave path written := by
  cases written <;> cases written' <;> try rfl
  simp only [Outputs.leave, Outputs.put, Outputs.mk.injEq, true_and]
  funext file
  grind

/-- No task looks at what another one writes. -/
theorem run_comm (hne : args.jsonOutPath ≠ args.yamlOutPath) (task task' : Task) :
    Task.run formats jsonDisk yamlDisk items args
        (Task.run formats jsonDisk yamlDisk items args outputs task) task' =
      Task.run formats jsonDisk yamlDisk items args
        (Task.run formats jsonDisk yamlDisk items args outputs task') task := by
  cases task <;> cases task' <;> simp only [Task.run, print_leave, leave_comm hne]

theorem foldl_schedule (hne : args.jsonOutPath ≠ args.yamlOutPath)
    (hperm : schedule.Perm (launched args)) :
    schedule.foldl (Task.run formats jsonDisk yamlDisk items args) {} =
      ((if args.writeConsole then
          Outputs.print (printItems formats items args.isFullInfo) {} else {}).leave
        args.jsonOutPath (writeItemsJson formats jsonDisk items args.jsonOutPath).1).leave
        args.yamlOutPath (writeItemsYaml formats yamlDisk items args.yamlOutPath).1 := by
  have hfold := hperm.foldl_eq' (f := Task.run formats jsonDisk yamlDisk items args)
    (fun task _ task' _ outputs => run_comm hne task task') {}
  rw [hfold]
  unfold launched
  cases args.writeConsole <;> rfl

theorem reportsItems_eq : reportsItems formats jsonDisk yamlDisk items args =
    reportItems formats jsonDisk yamlDisk items args := by
  cases items <;> rfl

theorem writeItemsJson_ok (h : (writeItemsJson formats disk items path).2 = .ok ()) :
    ∃ text, (writeItemsJson formats disk items path).1 = some text := by
  cases items with
  | products products => exact ⟨_, writeFile_ok h⟩
  | recipes recipes => exact ⟨_, writeFile_ok h⟩

theorem writeItemsYaml_ok (h : (writeItemsYaml formats disk items path).2 = .ok ()) :
    ∃ text, (writeItemsYaml formats disk items path).1 = some text := by
  cases items with
  | products products => exact ⟨_, writeFile_ok h⟩
  | recipes recipes => exact ⟨_, writeFile_ok h⟩

/-- **The parallel reports agree with the plain ones** when both files are enabled, and otherwise
only when the writers fail in step. -/
theorem parallel_agrees_iff (hdistinct : (args.jsonOutPath == args.yamlOutPath) = false)
    (hperm : schedule.Perm (launched args)) :
    Agree args (reportsItems formats jsonDisk yamlDisk items args)
        (parallelReportsItems formats jsonDisk yamlDisk schedule items args) ↔
      AgreesWhen args (writeItemsJson formats jsonDisk items args.jsonOutPath)
        (writeItemsYaml formats yamlDisk items args.yamlOutPath) := by
  have hne := beq_path_false hdistinct
  have hjson : (writeItemsJson formats jsonDisk items args.jsonOutPath).2 = .ok () → _ :=
    writeItemsJson_ok
  have hyaml : (writeItemsYaml formats yamlDisk items args.yamlOutPath).2 = .ok () → _ :=
    writeItemsYaml_ok
  rw [reportsItems_eq]
  unfold parallelReportsItems reportItems writeReports
  rw [foldl_schedule hne hperm]
  generalize writeItemsJson formats jsonDisk items args.jsonOutPath = json at *
  generalize writeItemsYaml formats yamlDisk items args.yamlOutPath = yaml at *
  obtain ⟨jsonWritten, jsonResult⟩ := json
  obtain ⟨yamlWritten, yamlResult⟩ := yaml
  -- The console comes first in both and leaves no file.
  obtain ⟨start, hstart⟩ : ∃ start : Outputs, (if args.writeConsole then
      Outputs.print (printItems formats items args.isFullInfo) {} else {}) = start := ⟨_, rfl⟩
  have hfiles : ∀ file, start.files file = none := by
    intro file
    rw [← hstart]
    split <;> rfl
  unfold AgreesWhen
  simp only [agree_iff, hstart]
  cases hwj : args.writeJson with
  | true =>
      cases hwy : args.writeYaml with
      | true =>
          -- Both run both writers, and the JSON error, if any, comes first in both.
          cases jsonResult <;> cases yamlResult <;> simp
      | false =>
          -- Only the error of the JSON writer hides that the YAML writer ran.
          cases jsonResult <;> cases yamlResult <;>
            simp [leave_files, hne, Ne.symm hne, hfiles] at hjson hyaml ⊢ <;> grind
  | false =>
      cases hwy : args.writeYaml with
      | true =>
          -- The JSON error is reported first, so it has to be the YAML error.
          cases jsonResult <;> cases yamlResult <;>
            simp [leave_files, hne, Ne.symm hne, hfiles] at hjson hyaml ⊢ <;> grind
      | false =>
          -- With the console alone the result is success, which no failed writer gives.
          cases hwc : args.writeConsole <;> cases jsonResult <;> cases yamlResult <;>
            simp [leave_files, hne, Ne.symm hne, hfiles] at hjson hyaml ⊢ <;> grind

end

/-- The names alone. -/
def nameFormats : Formats where
  printProducts products := String.join (products.map fun product => product.name ++ "\n")
  printRecipes recipes _ := String.join (recipes.map fun recipe => recipe.name ++ "\n")
  productsJson products := "[" ++ String.join (products.map Product.name) ++ "]"
  recipesJson recipes := "[" ++ String.join (recipes.map Recipe.name) ++ "]"
  productsYaml products := String.join (products.map fun product => "- " ++ product.name ++ "\n")
  recipesYaml recipes := String.join (recipes.map fun recipe => "- " ++ recipe.name ++ "\n")

def bottle : Items := .products [{ name := "milk", amount := 1, dimension := .liter }]

def twoPaths : Args.ArgsOut where
  jsonOutPath := ⟨"info.json"⟩
  yamlOutPath := ⟨"info.yaml"⟩

/-- All flags are set; the YAML task overtakes the others. -/
theorem parallel_agrees_all_enabled :
    Agree twoPaths (reportsItems nameFormats {} {} bottle twoPaths)
      (parallelReportsItems nameFormats {} {} [.yaml, .console, .json] bottle twoPaths) :=
  (parallel_agrees_iff (by decide) (by decide)).mpr trivial

/-- With the console alone both files are written; with nothing enabled as well, and the result is
success. -/
theorem parallel_writes_disabled :
    let console := { twoPaths with writeJson := false, writeYaml := false }
    let nothing := { console with writeConsole := false }
    (reportsItems nameFormats {} {} bottle console).1 = .ok () ∧
    (reportsItems nameFormats {} {} bottle console).2.files ⟨"info.json"⟩ = none ∧
    (parallelReportsItems nameFormats {} {} (launched console) bottle console).1 = .ok () ∧
    (parallelReportsItems nameFormats {} {} (launched console) bottle console).2.files
      ⟨"info.json"⟩ = some "[milk]" ∧
    (reportsItems nameFormats {} {} bottle nothing).1 = .error .invalidArgument ∧
    (parallelReportsItems nameFormats {} {} (launched nothing) bottle nothing).1 = .ok () ∧
    ¬ Agree console (reportsItems nameFormats {} {} bottle console)
      (parallelReportsItems nameFormats {} {} (launched console) bottle console) := by
  intro console nothing
  have hwritten : (parallelReportsItems nameFormats {} {} (launched console) bottle
      console).2.files ⟨"info.json"⟩ = some "[milk]" := by decide +kernel
  refine ⟨by decide +kernel, by decide +kernel, by decide +kernel, hwritten, by decide +kernel,
    by decide +kernel, ?_⟩
  intro h
  have hnone := (h.jsonDisabled rfl).2
  rw [show console.jsonOutPath = ⟨"info.json"⟩ from rfl, hwritten] at hnone
  cases hnone

end RecipesCore.Io
