import RecipesCore.Config.ServerConfig
import RecipesCore.Io.Options

/-!
# `main`, from the arguments to its exit code

`main` parses its arguments, loads the configuration they name, opens the database, starts the server
and waits for a stop signal; each stage has its own way out. The wait itself is in
`Main.StopSignal`: here it ends, and the server is stopped.

The exit codes are read off the arguments, the file and the answers of the system. Two ways out are
closed to a configuration that was loaded: the constructor of the executor does not refuse its
capacity, and `Start` does not refuse the configuration.
-/

namespace RecipesCore.Io

/-- `BuildUsage`. -/
def buildUsage (programName : String) : String :=
  "Usage: " ++ programName ++ " [options]\n" ++
  "Options:\n" ++
  "  -h, --help               Show this help message\n" ++
  "  --full-info              Print full recipe info to console (default)\n" ++
  "  --short                  Print short recipe info to console\n" ++
  "  --all-recipes            Select all recipes (default)\n" ++
  "  --cookable               Select only cookable recipes\n" ++
  "  --console                Enable console output (default)\n" ++
  "  --no-console             Disable console output\n" ++
  "  --json                   Enable JSON output (default)\n" ++
  "  --no-json                Disable JSON output\n" ++
  "  --yaml                   Enable YAML output (default)\n" ++
  "  --no-yaml                Disable YAML output\n" ++
  "  --json-out=<path>        JSON output path\n" ++
  "  --yaml-out=<path>        YAML output path\n" ++
  "  --db-path=<path>         SQL database path\n" ++
  "  --server-config=<path>   Start HTTP/HTTPS server from config\n"

/-- The last item that gives something decides. -/
theorem lastGiven_eq_iff {τ α : Type*} {gives : τ → Option α} {default a : α} {items : List τ}
    (hne : a ≠ default) : lastGiven gives default items = a ↔
      ∃ front item back, items = front ++ item :: back ∧ gives item = some a ∧
        ∀ later ∈ back, gives later = none := by
  induction items using List.reverseRecOn with
  | nil =>
      constructor
      · intro h
        exact absurd h.symm hne
      · rintro ⟨front, item, back, h, -⟩
        simp at h
  | append_singleton items item ih =>
      rw [lastGiven_snoc]
      constructor
      · intro h
        cases hgives : gives item with
        | some b =>
            rw [hgives, Option.getD_some] at h
            exact ⟨items, item, [], rfl, h ▸ hgives, by simp⟩
        | none =>
            rw [hgives, Option.getD_none] at h
            obtain ⟨front, chosen, back, rfl, hchosen, hlater⟩ := ih.mp h
            refine ⟨front, chosen, back ++ [item], by simp, hchosen, fun later hmem => ?_⟩
            rcases List.mem_append.mp hmem with hmem | hmem
            · exact hlater later hmem
            · rw [List.mem_singleton.mp hmem, hgives]
      · rintro ⟨front, chosen, back, heq, hchosen, hlater⟩
        induction back using List.reverseRecOn with
        | nil =>
            obtain ⟨-, hlast⟩ := List.append_inj' heq rfl
            obtain rfl := List.singleton_inj.mp hlast
            rw [hchosen, Option.getD_some]
        | append_singleton back last _ =>
            rw [← List.cons_append, ← List.append_assoc] at heq
            obtain ⟨hfront, hlast⟩ := List.append_inj' heq rfl
            obtain rfl := List.singleton_inj.mp hlast
            rw [hlater item (by simp), Option.getD_none]
            exact ih.mpr ⟨front, chosen, back, hfront, hchosen, fun later hmem =>
              hlater later (List.mem_append_left _ hmem)⟩

end RecipesCore.Io

namespace RecipesCore.Main

open RecipesCore.Config
open RecipesCore.Io
open RecipesCore.Logic.Program

/-! ## The program -/

/-- What surrounds the process. -/
structure World where
  /-- `RECIPES_PROJECT_ROOT`. -/
  root : String
  files : Files
  glaze : ConfigGlaze
  /-- What the constructor of `DBManager` throws for a path. -/
  databaseError : String → Option String := fun _ => none
  answers : Net.Startup.Answers := {}
  httpEndpoint : Option UInt16 := none
  httpsEndpoint : Option UInt16 := none

inductive Ending where
  | returned (code : Nat)
  /-- An exception leaves `main`. -/
  | terminated (what : String)
  deriving DecidableEq, Repr

structure Execution where
  out : List String := []
  err : List String := []
  ending : Ending
  /-- The configuration and the server while `main` waits. -/
  serving : Option (ServerConfig × Net.Startup.Server) := none
  /-- The server behind its destructor. -/
  left : Net.Startup.Server := {}

/-- The constructor of `DatabaseExecutor`: its members are initialized before its body runs. -/
def constructExecutor (databaseError : String → Option String) (dbPath : String)
    (queueCapacity : Nat) : Except String Unit :=
  match databaseError dbPath with
  | some what => .error what
  | none =>
      if queueCapacity = 0 then .error "Database queue capacity must be positive" else .ok ()

def printPorts (httpPort httpsPort : UInt16) : List String :=
  ("HTTP port: " ++ toString httpPort ++ "\n") ::
    if httpsPort ≠ 0 then ["HTTPS port: " ++ toString httpsPort ++ "\n"] else []

/-- From the executor to the end; the destructor of the server calls `Stop` once more. -/
def serve (world : World) (config : ServerConfig) : Execution :=
  match constructExecutor world.databaseError config.databasePath
      config.databaseQueueCapacity with
  | .error what => { ending := .terminated what }
  | .ok () =>
      match runOn (Net.Startup.Server.start config.toServerConfig world.answers) {} with
      | (.error message, server) =>
          { err := ["Failed to start server: " ++ message ++ "\n"], ending := .returned 4
            left := server.stop }
      | (.ok (), server) =>
          { out := printPorts (server.httpPort world.httpEndpoint)
              (server.httpsPort world.httpsEndpoint)
            ending := .returned 0
            serving := some (config, server)
            left := server.stop.stop }

def main (world : World) (argv : List String) : Execution :=
  let programName := argv.head?.getD "recipes"
  match parseArgs world.root argv with
  | .error message =>
      { err := [message ++ "\n", buildUsage programName], ending := .returned 2 }
  | .ok args =>
      if args.showHelp then { out := [buildUsage programName], ending := .returned 0 }
      else if args.app.serverConfigPath.native = "" then { ending := .returned 0 }
      else
        match loadServerConfig world.files world.glaze args.app.serverConfigPath with
        | .error message =>
            { err := ["Failed to load server configuration: " ++ message ++ "\n"]
              ending := .returned 3 }
        | .ok config => serve world config

/-! ## What the arguments and the file ask for -/

/-- The tokens are accepted. -/
def Parses (root : String) (argv : List String) : Prop :=
  (∀ token ∈ argv.tail, isValidToken token = true) ∧ ¬ Clashes root argv.tail

/-- The tokens ask for a server and for no help; the last path counts. -/
structure Asks (root : String) (argv : List String) (configPath : Path) : Prop where
  parses : Parses root argv
  noHelp : ∀ token ∈ argv.tail, givesHelp token = none
  last : ∃ front token back, argv.tail = front ++ token :: back ∧
    givesPath "--server-config" token = some configPath ∧
    ∀ later ∈ back, givesPath "--server-config" later = none

/-- The file that the arguments name holds a valid configuration. -/
def World.Loads (world : World) (argv : List String) (config : ServerConfig) : Prop :=
  ∃ configPath, Asks world.root argv configPath ∧
    Holds world.files world.glaze configPath config ∧ config.Valid

/-- Arguments that can be parsed give what was chosen last. -/
theorem parses_iff {root : String} {argv : List String} :
    Parses root argv ↔ parseArgs root argv = .ok (chosen root argv.tail) := by
  cases argv with
  | nil =>
      refine iff_of_true ⟨by simp, ?_⟩ rfl
      rintro ⟨front, token, back, h, -⟩
      simp at h
  | cons program tokens =>
      rw [parseArgs_eq_ok_iff]
      constructor
      · rintro ⟨hvalid, hclash⟩
        exact ⟨hvalid, hclash, rfl⟩
      · rintro ⟨hvalid, hclash, -⟩
        exact ⟨hvalid, hclash⟩

theorem eq_chosen {root : String} {argv : List String} {args : Args}
    (h : parseArgs root argv = .ok args) : args = chosen root argv.tail := by
  cases argv with
  | nil => exact (Except.ok.inj h).symm
  | cons program tokens => exact (parseArgs_eq_ok_iff.mp h).2.2

/-- No help is asked for when no token asks for it. -/
theorem noHelp_iff {tokens : List String} :
    lastGiven givesHelp false tokens = false ↔ ∀ token ∈ tokens, givesHelp token = none := by
  induction tokens using List.reverseRecOn with
  | nil => simp [lastGiven]
  | append_singleton tokens token ih =>
      rw [lastGiven_snoc, List.forall_mem_append, ← ih, List.forall_mem_singleton]
      unfold givesHelp
      split
      · simp
      · simp

/-- A path from a token is not empty, so the default is never what was asked for. -/
theorem givesPath_ne {flag token : String} {path : Path} (hvalid : isValidToken token = true)
    (hvalue : getFlagType flag = some .value) (h : givesPath flag token = some path) :
    path.native ≠ "" := by
  unfold givesPath at h
  split at h
  · next hflag =>
      obtain rfl := Option.some.inj h
      intro hempty
      have hempty : (splitOption token).2 = "" := hempty
      unfold isValidToken at hvalid
      split at hvalid
      · cases hvalid
      · rw [← hflag] at hvalue
        simp [hvalue, hempty] at hvalid
  · cases h

/-- `main` gets as far as the configuration exactly when it is asked to. -/
theorem asks_iff {root : String} {argv : List String} {configPath : Path} :
    Asks root argv configPath ↔ ∃ args, parseArgs root argv = .ok args ∧ args.showHelp = false ∧
      args.app.serverConfigPath.native ≠ "" ∧ args.app.serverConfigPath = configPath := by
  constructor
  · rintro ⟨hparses, hhelp, hlast⟩
    refine ⟨_, parses_iff.mp hparses, noHelp_iff.mpr hhelp, ?_⟩
    obtain ⟨front, token, back, htail, hgives, hlater⟩ := hlast
    have hne : configPath.native ≠ "" :=
      givesPath_ne (hparses.1 token (by simp [htail])) (by decide +kernel) hgives
    have hchosen : (chosen root argv.tail).app.serverConfigPath = configPath := by
      refine (lastGiven_eq_iff ?_).mpr ⟨front, token, back, htail, hgives, hlater⟩
      rintro rfl
      exact hne rfl
    rw [hchosen]
    exact ⟨hne, rfl⟩
  · rintro ⟨args, hargs, hhelp, hne, rfl⟩
    obtain rfl := eq_chosen hargs
    refine ⟨parses_iff.mpr hargs, noHelp_iff.mp hhelp, (lastGiven_eq_iff ?_).mp rfl⟩
    intro hdefault
    exact hne (congrArg Path.native hdefault)

/-! ## The ways out -/

section

variable {world : World} {argv : List String} {config : ServerConfig}

/-- Without arguments that parse `main` returns `2` and opens nothing. -/
theorem main_of_not_parses (h : ¬ Parses world.root argv) :
    (main world argv).ending = .returned 2 ∧ (main world argv).serving = none ∧
      (main world argv).left = {} := by
  unfold main
  cases hargs : parseArgs world.root argv with
  | error message => exact ⟨rfl, rfl, rfl⟩
  | ok args =>
      obtain rfl := eq_chosen hargs
      exact absurd (parses_iff.mpr hargs) h

/-- With a configuration path all depends on the file. -/
theorem main_of_asks {configPath : Path} (h : Asks world.root argv configPath) :
    main world argv = match loadServerConfig world.files world.glaze configPath with
      | .error message =>
          { err := ["Failed to load server configuration: " ++ message ++ "\n"]
            ending := .returned 3 }
      | .ok config => serve world config := by
  obtain ⟨args, hargs, hhelp, hne, rfl⟩ := asks_iff.mp h
  simp only [main, hargs, hhelp, Bool.false_eq_true, if_false, if_neg hne]

/-- Where no server is asked for there is nothing to do. -/
theorem main_of_parses (hparses : Parses world.root argv)
    (h : ∀ configPath, ¬ Asks world.root argv configPath) :
    (main world argv).ending = .returned 0 ∧ (main world argv).serving = none ∧
      (main world argv).left = {} := by
  have hargs := parses_iff.mp hparses
  simp only [main, hargs]
  split
  · exact ⟨rfl, rfl, rfl⟩
  · next hhelp =>
      split
      · exact ⟨rfl, rfl, rfl⟩
      · next hne =>
          exact absurd (asks_iff.mpr ⟨_, hargs, by simpa using hhelp, hne, rfl⟩) (h _)

/-- Nothing is open and no worker is left. -/
def Closed (server : Net.Startup.Server) : Prop :=
  server.started = false ∧ server.acceptor = {} ∧ server.httpsAcceptor = {} ∧ server.workers = 0

theorem closed_init : Closed {} := ⟨rfl, rfl, rfl, rfl⟩

/-- A stopped server holds nothing open. -/
theorem closed_of_stopped {config : Net.Startup.ServerConfig} {server : Net.Startup.Server}
    (h : Net.Startup.Stopped config server) : Closed server :=
  ⟨h.started, h.acceptor, h.httpsAcceptor, h.workers⟩

/-- A loaded configuration gets past the executor and past the checks of `Start`. -/
theorem serve_of_valid (hvalid : config.Valid) :
    match world.databaseError config.databasePath with
    | some what => serve world config = { ending := .terminated what }
    | none =>
        (Accepts config world.answers ∧ (serve world config).ending = .returned 0 ∧
          (serve world config).serving =
            some (config, Net.Startup.running config.toServerConfig world.answers) ∨
        ¬ Accepts config world.answers ∧ (serve world config).ending = .returned 4 ∧
          (serve world config).serving = none) ∧
        Net.Startup.Stopped config.toServerConfig (serve world config).left := by
  unfold serve constructExecutor
  cases world.databaseError config.databasePath with
  | some what => rfl
  | none =>
      simp only [if_neg (Nat.ne_of_gt hvalid.capacity)]
      have hstart : Net.Startup.startError config.toServerConfig world.answers = none ↔
          Accepts config world.answers := startError_eq_none hvalid
      cases herror : Net.Startup.startError config.toServerConfig world.answers with
      | none =>
          rw [Net.Startup.stopped_init.start_ok herror]
          refine ⟨Or.inl ⟨hstart.mp herror, rfl, rfl⟩, ?_⟩
          show Net.Startup.Stopped config.toServerConfig
            (Net.Startup.running config.toServerConfig world.answers).stop.stop
          have hstopped : Net.Startup.Stopped config.toServerConfig
              (Net.Startup.running config.toServerConfig world.answers).stop :=
            Net.Startup.stop_running
          rw [Net.Startup.stop_of_stopped hstopped.started]
          exact hstopped
      | some message =>
          obtain ⟨s, hs, hrun⟩ := Net.Startup.stopped_init.start_error herror
          rw [hrun]
          refine ⟨Or.inr ⟨fun haccepts => ?_, rfl, rfl⟩, ?_⟩
          · rw [hstart.mpr haccepts] at herror
            cases herror
          · show Net.Startup.Stopped _ s.stop
            rw [Net.Startup.stop_of_stopped hs.started]
            exact hs

/-- There is one configuration path, the one given last. -/
theorem asks_unique {root : String} {configPath configPath' : Path} (h : Asks root argv configPath)
    (h' : Asks root argv configPath') : configPath = configPath' := by
  obtain ⟨args, hargs, -, -, rfl⟩ := asks_iff.mp h
  obtain ⟨args', hargs', -, -, rfl⟩ := asks_iff.mp h'
  rw [Except.ok.inj (hargs.symm.trans hargs')]

theorem loads_iff {configPath : Path} (h : Asks world.root argv configPath) :
    world.Loads argv config ↔
      loadServerConfig world.files world.glaze configPath = .ok config := by
  rw [loadServerConfig_eq_ok]
  constructor
  · rintro ⟨configPath', h', hholds⟩
    rwa [asks_unique h h']
  · intro hholds
    exact ⟨configPath, h, hholds⟩

/-- What can become of a process. -/
inductive Way (world : World) (argv : List String) (e : Execution) : Prop where
  | usage : ¬ Parses world.root argv → e.ending = .returned 2 → e.serving = none →
      Closed e.left → Way world argv e
  | idle : Parses world.root argv → (∀ path, ¬ Asks world.root argv path) →
      e.ending = .returned 0 → e.serving = none → Closed e.left → Way world argv e
  | refused (configPath : Path) : Asks world.root argv configPath →
      (∀ config, ¬ world.Loads argv config) → e.ending = .returned 3 → e.serving = none →
      Closed e.left → Way world argv e
  | terminated (config : ServerConfig) (what : String) : world.Loads argv config →
      world.databaseError config.databasePath = some what → e.ending = .terminated what →
      e.serving = none → Closed e.left → Way world argv e
  | failed (config : ServerConfig) : world.Loads argv config →
      world.databaseError config.databasePath = none → ¬ Accepts config world.answers →
      e.ending = .returned 4 → e.serving = none → Closed e.left → Way world argv e
  | served (config : ServerConfig) : world.Loads argv config →
      world.databaseError config.databasePath = none → Accepts config world.answers →
      e.ending = .returned 0 →
      e.serving = some (config, Net.Startup.running config.toServerConfig world.answers) →
      Closed e.left → Way world argv e

/-- Serving ends in one of the ways. -/
theorem serve_way (hloads : world.Loads argv config) : Way world argv (serve world config) := by
  have hvalid : config.Valid := by
    obtain ⟨configPath, -, -, hvalid⟩ := hloads
    exact hvalid
  have hserve := @serve_of_valid world config hvalid
  cases hdatabase : world.databaseError config.databasePath with
  | some what =>
      rw [hdatabase] at hserve
      rw [hserve]
      exact .terminated config what hloads hdatabase rfl rfl closed_init
  | none =>
      rw [hdatabase] at hserve
      obtain ⟨⟨haccepts, hending, hserving⟩ | ⟨hrefuses, hending, hserving⟩, hstopped⟩ := hserve
      · exact .served config hloads hdatabase haccepts hending hserving (closed_of_stopped hstopped)
      · exact .failed config hloads hdatabase hrefuses hending hserving (closed_of_stopped hstopped)

/-- **`main` ends in one of the ways**, whatever it is given. -/
theorem main_way (world : World) (argv : List String) : Way world argv (main world argv) := by
  by_cases hparses : Parses world.root argv
  · by_cases hasks : ∃ configPath, Asks world.root argv configPath
    · obtain ⟨configPath, hasks⟩ := hasks
      have hmain := main_of_asks hasks
      cases hload : loadServerConfig world.files world.glaze configPath with
      | error message =>
          rw [hload] at hmain
          rw [hmain]
          refine .refused configPath hasks (fun config hconfig => ?_) rfl rfl closed_init
          rw [loads_iff hasks, hload] at hconfig
          cases hconfig
      | ok config =>
          rw [hload] at hmain
          rw [hmain]
          exact serve_way ((loads_iff hasks).mpr hload)
    · rw [not_exists] at hasks
      obtain ⟨hending, hserving, hleft⟩ := main_of_parses hparses hasks
      exact .idle hparses hasks hending hserving (hleft ▸ closed_init)
  · obtain ⟨hending, hserving, hleft⟩ := main_of_not_parses hparses
    exact .usage hparses hending hserving (hleft ▸ closed_init)

theorem loads_unique {config' : ServerConfig} (h : world.Loads argv config)
    (h' : world.Loads argv config') : config = config' := by
  obtain ⟨configPath, hasks⟩ : ∃ configPath, Asks world.root argv configPath := by
    obtain ⟨configPath, hasks, -⟩ := h
    exact ⟨configPath, hasks⟩
  rw [loads_iff hasks] at h h'
  exact Except.ok.inj (h.symm.trans h')

/-- **Each exit code has its one reason**, to be read off the arguments, the file and the answers of
the system. Once a configuration is loaded only the database can end the process otherwise, and only
the system can keep it from serving what the file asks for. Nothing is left open at the end. -/
theorem exit_code_of_main (world : World) (argv : List String) :
    ((main world argv).ending = .returned 0 ↔
      (Parses world.root argv ∧ ∀ configPath, ¬ Asks world.root argv configPath) ∨
        ∃ config, world.Loads argv config ∧ world.databaseError config.databasePath = none ∧
          Accepts config world.answers) ∧
    ((main world argv).ending = .returned 2 ↔ ¬ Parses world.root argv) ∧
    ((main world argv).ending = .returned 3 ↔
      (∃ configPath, Asks world.root argv configPath) ∧ ∀ config, ¬ world.Loads argv config) ∧
    (∀ what, (main world argv).ending = .terminated what ↔
      ∃ config, world.Loads argv config ∧
        world.databaseError config.databasePath = some what) ∧
    ((main world argv).ending = .returned 4 ↔
      ∃ config, world.Loads argv config ∧ world.databaseError config.databasePath = none ∧
        ¬ Accepts config world.answers) ∧
    (∀ config server, (main world argv).serving = some (config, server) ↔
      world.Loads argv config ∧ world.databaseError config.databasePath = none ∧
        Accepts config world.answers ∧
        server = Net.Startup.running config.toServerConfig world.answers) ∧
    Closed (main world argv).left := by
  have hasks : ∀ path, Asks world.root argv path → Parses world.root argv := fun _ h => h.parses
  have hloads : ∀ config, world.Loads argv config → ∃ path, Asks world.root argv path := by
    rintro config ⟨configPath, h, -⟩
    exact ⟨configPath, h⟩
  have hunique : ∀ config config', world.Loads argv config → world.Loads argv config' →
      config = config' := fun _ _ => loads_unique
  cases main_way world argv with
  | usage hparses hending hserving hclosed => grind
  | idle hparses hidle hending hserving hclosed => grind
  | refused configPath hpath hnone hending hserving hclosed => grind
  | terminated config what hconfig hdatabase hending hserving hclosed => grind
  | failed config hconfig hdatabase hrefuses hending hserving hclosed => grind
  | served config hconfig hdatabase haccepts hending hserving hclosed => grind

end

end RecipesCore.Main
