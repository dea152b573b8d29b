import RecipesCore.Io.Args
import RecipesCore.Server.Startup

/-!
# `config::LoadServerConfig`

A configuration file is read, parsed by what its extension says, and validated; Glaze is a parameter.
What `ValidateServerConfig` lets through is a `Valid` configuration, and of such a one nothing is
left for `Server::Start` to complain about: the errors that remain are the system's.
-/

namespace RecipesCore.Io.Path

/-! ## The extension of a path -/

/-- What stands before and after the last dot. -/
def splitAtLastDot : List Char → Option (List Char × List Char)
  | [] => none
  | c :: rest =>
      match splitAtLastDot rest with
      | some (stem, ext) => some (c :: stem, ext)
      | none => if c = '.' then some ([], rest) else none

/-- The last element; it is empty when the path ends in a separator. -/
def filename (p : Path) : List Char := p.pieces.getLast?.getD []

/-- `extension()`: a file name that is `..`, or whose only dot is its first character, has none. -/
def extension (p : Path) : List Char :=
  match splitAtLastDot p.filename with
  | none => []
  | some (stem, ext) => if stem = [] ∨ p.filename = ['.', '.'] then [] else '.' :: ext

/-- `std::tolower` in the "C" locale. -/
def lowercaseExtension (p : Path) : String := String.ofList (p.extension.map Char.toLower)

theorem splitAtLastDot_eq_none {name : List Char} : splitAtLastDot name = none ↔ '.' ∉ name := by
  induction name with
  | nil => simp [splitAtLastDot]
  | cons c rest ih =>
      unfold splitAtLastDot
      cases hrest : splitAtLastDot rest with
      | none =>
          have hnot := ih.mp hrest
          by_cases hc : c = '.'
          · simp [hc]
          · simp [hc, hnot, Ne.symm hc]
      | some split =>
          have hmem : '.' ∈ rest := by
            by_contra hnot
            rw [ih.mpr hnot] at hrest
            cases hrest
          simp [hmem]

theorem splitAtLastDot_eq_some {name stem ext : List Char} :
    splitAtLastDot name = some (stem, ext) ↔ name = stem ++ '.' :: ext ∧ '.' ∉ ext := by
  induction name generalizing stem ext with
  | nil => simp [splitAtLastDot]
  | cons c rest ih =>
      unfold splitAtLastDot
      -- a dot counts only when no dot follows it
      cases hrest : splitAtLastDot rest with
      | none =>
          have hnot := splitAtLastDot_eq_none.mp hrest
          cases stem with
          | nil =>
              by_cases hc : c = '.'
              · subst hc
                simp only [if_true, Option.some.injEq, Prod.mk.injEq, true_and, List.nil_append,
                  List.cons.injEq]
                exact ⟨fun h => ⟨h, h ▸ hnot⟩, fun h => h.1⟩
              · simp [hc]
          | cons d stem =>
              simp only [List.cons_append, List.cons.injEq]
              constructor
              · intro h
                split at h <;> cases h
              · rintro ⟨⟨-, rfl⟩, -⟩
                simp at hnot
      | some split =>
          obtain ⟨stem', ext'⟩ := split
          obtain ⟨hname, hdot⟩ := ih.mp hrest
          cases stem with
          | nil =>
              simp only [Option.some.injEq, Prod.mk.injEq, reduceCtorEq, false_and, false_iff,
                List.nil_append, List.cons.injEq, not_and, Decidable.not_not]
              rintro ⟨-, rfl⟩
              rw [hname]
              simp
          | cons d stem =>
              have hstem := @ih stem ext
              rw [hrest] at hstem
              simp only [Option.some.injEq, Prod.mk.injEq, List.cons.injEq, List.cons_append]
                at hstem ⊢
              constructor
              · rintro ⟨⟨hc, hs⟩, he⟩
                obtain ⟨hrest, hext⟩ := hstem.mp ⟨hs, he⟩
                exact ⟨⟨hc, hrest⟩, hext⟩
              · rintro ⟨⟨hc, hrest⟩, hext⟩
                obtain ⟨hs, he⟩ := hstem.mpr ⟨hrest, hext⟩
                exact ⟨⟨hc, hs⟩, he⟩

/-- The file name is a stem, a dot and, but for the case, `letters`. -/
def Extended (p : Path) (letters : String) : Prop :=
  ∃ stem ext, stem ≠ [] ∧ p.filename = stem ++ '.' :: ext ∧ ext.map Char.toLower = letters.toList

/-- An extension without dots is the one of the files that are named so. -/
theorem lowercaseExtension_eq_iff {p : Path} {letters : String} (hne : letters ≠ "")
    (hdot : '.' ∉ letters.toList) : p.lowercaseExtension = "." ++ letters ↔ p.Extended letters := by
  have hlist : p.lowercaseExtension = "." ++ letters ↔
      p.extension.map Char.toLower = '.' :: letters.toList := by
    rw [lowercaseExtension, ← String.toList_inj, String.toList_ofList, String.toList_append]
    rfl
  have hlower : ∀ ext : List Char, ext.map Char.toLower = letters.toList → '.' ∉ ext := by
    intro ext h hmem
    apply hdot
    rw [← h]
    exact List.mem_map.mpr ⟨'.', hmem, by decide⟩
  rw [hlist, extension, Extended]
  constructor
  · intro h
    split at h
    · cases h
    · next stem ext hsplit =>
        obtain ⟨hname, -⟩ := splitAtLastDot_eq_some.mp hsplit
        split at h
        · cases h
        · next hnot =>
            rw [List.map_cons, List.cons.injEq] at h
            exact ⟨stem, ext, fun hstem => hnot (Or.inl hstem), hname, h.2⟩
  · rintro ⟨stem, ext, hstem, hname, hext⟩
    rw [splitAtLastDot_eq_some.mpr ⟨hname, hlower ext hext⟩]
    have hnot : ¬ (stem = [] ∨ p.filename = ['.', '.']) := by
      rintro (rfl | hdots)
      · exact hstem rfl
      · -- behind the last dot of `..` there is nothing
        have hlast := congrArg List.getLast? (hname.symm.trans hdots)
        cases ext with
        | nil =>
            rw [List.map_nil] at hext
            exact hne (String.toList_inj.mp hext.symm)
        | cons c ext =>
            have hmem : '.' ∈ c :: ext := by
              apply List.mem_of_getLast? (a := '.')
              simpa [List.getLast?_append, List.getLast?_cons_cons] using hlast
            exact hlower _ hext hmem
    simp only [if_neg hnot, List.map_cons, hext]
    rfl

end RecipesCore.Io.Path

namespace RecipesCore.Config

open RecipesCore.Io
open RecipesCore.Net

/-! ## Configuration -/

/-- What `Server::Start` looks at is in `Startup.ServerConfig`. -/
structure ServerConfig extends Startup.ServerConfig where
  databasePath : String := "data/recipes.db"
  databaseQueueCapacity : Nat := 128
  headerLimit : Nat := 8192
  bodyLimit : Nat := 1048576
  requestTimeoutSeconds : UInt32 := 30
  shutdownTimeoutSeconds : UInt32 := 5
  deriving DecidableEq, Repr

/-- `glz::read_json` and `glz::read_yaml` into a `ServerConfig`, with the formatted error. -/
structure ConfigGlaze where
  readJson : String → Except String ServerConfig
  readYaml : String → Except String ServerConfig

def validateServerConfig (config : ServerConfig) : Except String Unit :=
  if !config.http.enabled && !config.https.enabled then
    .error "At least one listener must be enabled"
  else if config.networkThreads = 0 then .error "Network thread count must be positive"
  else if config.databaseQueueCapacity = 0 then .error "Database queue capacity must be positive"
  else if config.headerLimit = 0 ∨ config.bodyLimit = 0 ∨ config.requestTimeoutSeconds = 0 then
    .error "Request limits and timeout must be positive"
  else if config.shutdownTimeoutSeconds = 0 then .error "Shutdown timeout must be positive"
  else if config.https.enabled ∧
      (config.tls.certificatePath = "" ∨ config.tls.privateKeyPath = "") then
    .error "HTTPS requires certificate and private key paths"
  else if config.http.enabled ∧ config.https.enabled ∧
      config.http.address = config.https.address ∧ config.http.port = config.https.port then
    .error "HTTP and HTTPS listeners must use distinct endpoints"
  else .ok ()

/-- What opens as a file, with its text. -/
abbrev Files := Path → Option String

def readConfigFile (files : Files) (configPath : Path) : Except String String :=
  match files configPath with
  | none => .error ("Failed to open configuration file: " ++ configPath.native)
  | some text => .ok text

def parseConfig (glaze : ConfigGlaze) (extension text : String) : Except String ServerConfig :=
  if extension = ".json" then glaze.readJson text
  else if extension = ".yaml" ∨ extension = ".yml" then glaze.readYaml text
  else .error ("Unsupported configuration file extension: " ++ extension)

def loadServerConfig (files : Files) (glaze : ConfigGlaze) (configPath : Path) :
    Except String ServerConfig := do
  let text ← readConfigFile files configPath
  let config ← parseConfig glaze configPath.lowercaseExtension text
  validateServerConfig config
  return config

/-! ## What validation lets through -/

/-- Both listeners cannot be given one endpoint, and nothing that is counted is zero. -/
structure ServerConfig.Valid (config : ServerConfig) : Prop where
  listens : config.http.enabled = true ∨ config.https.enabled = true
  threads : 0 < config.networkThreads
  capacity : 0 < config.databaseQueueCapacity
  header : 0 < config.headerLimit
  body : 0 < config.bodyLimit
  timeout : config.requestTimeoutSeconds ≠ 0
  shutdown : config.shutdownTimeoutSeconds ≠ 0
  materials : config.https.enabled = true →
    config.tls.certificatePath ≠ "" ∧ config.tls.privateKeyPath ≠ ""
  distinct : config.http.enabled = true → config.https.enabled = true →
    (config.http.address, config.http.port) ≠ (config.https.address, config.https.port)

theorem validateServerConfig_eq_ok {config : ServerConfig} :
    validateServerConfig config = .ok () ↔ config.Valid := by
  unfold validateServerConfig
  constructor
  · intro h
    split at h
    · cases h
    split at h
    · cases h
    split at h
    · cases h
    split at h
    · cases h
    split at h
    · cases h
    split at h
    · cases h
    split at h
    · cases h
    next hlistens hthreads hcapacity hlimits hshutdown hmaterials hdistinct =>
    simp only [not_or] at hlimits
    constructor
    · simpa [Bool.and_eq_true, Decidable.or_iff_not_imp_left] using hlistens
    · omega
    · omega
    · omega
    · omega
    · exact hlimits.2.2
    · exact hshutdown
    · intro henabled
      simpa [henabled] using hmaterials
    · intro hhttp hhttps heq
      obtain ⟨haddress, hport⟩ := Prod.mk.inj heq
      exact hdistinct ⟨hhttp, hhttps, haddress, hport⟩
  · intro h
    have hlistens : ¬ (!config.http.enabled && !config.https.enabled) = true := by
      rcases h.listens with hhttp | hhttps
      · simp [hhttp]
      · simp [hhttps]
    have hlimits : ¬ (config.headerLimit = 0 ∨ config.bodyLimit = 0 ∨
        config.requestTimeoutSeconds = 0) := by
      have := h.header
      have := h.body
      have := h.timeout
      grind
    have hmaterials : ¬ (config.https.enabled = true ∧
        (config.tls.certificatePath = "" ∨ config.tls.privateKeyPath = "")) := by
      rintro ⟨henabled, hempty⟩
      obtain ⟨hcertificate, hkey⟩ := h.materials henabled
      exact hempty.elim hcertificate hkey
    have hdistinct : ¬ (config.http.enabled = true ∧ config.https.enabled = true ∧
        config.http.address = config.https.address ∧ config.http.port = config.https.port) := by
      rintro ⟨hhttp, hhttps, haddress, hport⟩
      exact h.distinct hhttp hhttps (Prod.ext haddress hport)
    rw [if_neg hlistens, if_neg (Nat.ne_of_gt h.threads), if_neg (Nat.ne_of_gt h.capacity),
      if_neg hlimits, if_neg h.shutdown, if_neg hmaterials, if_neg hdistinct]

/-- The default configuration passes. -/
theorem ServerConfig.default_valid : ({} : ServerConfig).Valid :=
  validateServerConfig_eq_ok.mp rfl

/-! ## What is loaded -/

/-- The file at a path holds a configuration in the format that its extension names. -/
def Holds (files : Files) (glaze : ConfigGlaze) (configPath : Path) (config : ServerConfig) : Prop :=
  ∃ text, files configPath = some text ∧
    (configPath.Extended "json" ∧ glaze.readJson text = .ok config ∨
      (configPath.Extended "yaml" ∨ configPath.Extended "yml") ∧
        glaze.readYaml text = .ok config)

section

variable {files : Files} {glaze : ConfigGlaze} {configPath : Path} {config : ServerConfig}

theorem parseConfig_eq_ok {text : String} :
    parseConfig glaze configPath.lowercaseExtension text = .ok config ↔
      (configPath.Extended "json" ∧ glaze.readJson text = .ok config ∨
        (configPath.Extended "yaml" ∨ configPath.Extended "yml") ∧
          glaze.readYaml text = .ok config) := by
  have hjson := @Path.lowercaseExtension_eq_iff configPath "json" (by decide) (by decide)
  have hyaml := @Path.lowercaseExtension_eq_iff configPath "yaml" (by decide) (by decide)
  have hyml := @Path.lowercaseExtension_eq_iff configPath "yml" (by decide) (by decide)
  rw [← hjson, ← hyaml, ← hyml, parseConfig]
  split
  · next h => simp [h]
  · next hne =>
      split
      · next h => simp [hne, h]
      · next h => simp [hne, h]

/-- **A configuration is loaded from a file that holds it, and only if it is valid.** -/
theorem loadServerConfig_eq_ok : loadServerConfig files glaze configPath = .ok config ↔
    Holds files glaze configPath config ∧ config.Valid := by
  simp only [loadServerConfig, readConfigFile, Holds]
  cases hfile : files configPath with
  | none => simp [bind, Except.bind]
  | some text =>
      simp only [Option.some.injEq, exists_eq_left', ← parseConfig_eq_ok]
      cases hparse : parseConfig glaze configPath.lowercaseExtension text with
      | error message => simp [bind, Except.bind, hparse]
      | ok parsed =>
          simp only [bind, Except.bind, hparse, Except.ok.injEq]
          cases hvalid : validateServerConfig parsed with
          | error message =>
              have hnot : ¬ parsed.Valid := by
                rw [← validateServerConfig_eq_ok, hvalid]
                nofun
              simp only [reduceCtorEq, false_iff, not_and]
              rintro rfl
              exact hnot
          | ok _ =>
              have hvalid := validateServerConfig_eq_ok.mp hvalid
              constructor
              · intro h
                obtain rfl := Except.ok.inj h
                exact ⟨rfl, hvalid⟩
              · rintro ⟨rfl, -⟩
                rfl

end

/-! ## Nothing is left to complain about -/

/-- The system takes the listener. -/
def ListenerAccepts (config : Startup.ListenerConfig) (answers : Startup.ListenerAnswers) : Prop :=
  (∃ address, answers.makeAddress config.address = .ok address) ∧ answers.openError = none ∧
    answers.setOptionError = none ∧ answers.bindError = none ∧ answers.listenError = none

/-- OpenSSL takes the certificate and its key. -/
def TlsAccepts (config : Startup.TlsConfig) (answers : Startup.TlsAnswers) : Prop :=
  answers.setOptionsError = none ∧ answers.certificateError = none ∧
    answers.privateKeyError = none ∧ answers.privateKeyMatches = true ∧
    (config.certificateChainPath ≠ "" → answers.verifyFileError = none)

/-- The system takes what the configuration enables. -/
structure Accepts (config : ServerConfig) (answers : Startup.Answers) : Prop where
  http : config.http.enabled = true → ListenerAccepts config.http answers.http
  tls : config.https.enabled = true → TlsAccepts config.tls answers.tls
  https : config.https.enabled = true → ListenerAccepts config.https answers.https

section

variable {config : ServerConfig} {answers : Startup.Answers}

theorem listenerError_eq_none {config : Startup.ListenerConfig} {protocol : String}
    {answers : Startup.ListenerAnswers} :
    Startup.listenerError config protocol answers = none ↔ ListenerAccepts config answers := by
  unfold Startup.listenerError ListenerAccepts
  cases answers.makeAddress config.address with
  | error message => simp
  | ok address => simp [Option.or_eq_none_iff]

theorem tlsError_eq_none {config : Startup.TlsConfig} {answers : Startup.TlsAnswers}
    (h : config.certificatePath ≠ "" ∧ config.privateKeyPath ≠ "") :
    Startup.tlsError config answers = none ↔ TlsAccepts config answers := by
  unfold Startup.tlsError TlsAccepts
  rw [if_neg (by simp [h])]
  cases answers.setOptionsError with
  | some what => simp
  | none =>
      cases answers.certificateError with
      | some what => simp
      | none =>
          cases answers.privateKeyError with
          | some what => simp
          | none =>
              cases answers.privateKeyMatches with
              | false => simp
              | true =>
                  by_cases hchain : config.certificateChainPath = ""
                  · simp [hchain]
                  · simp [hchain]

/-- **Of a valid configuration only the system can refuse something.** -/
theorem startError_eq_none (hvalid : config.Valid) :
    Startup.startError config.toServerConfig answers = none ↔ Accepts config answers := by
  have hlistens : ¬ (!config.http.enabled && !config.https.enabled) = true := by
    rcases hvalid.listens with hhttp | hhttps
    · simp [hhttp]
    · simp [hhttps]
  unfold Startup.startError
  rw [if_neg hlistens, Option.or_eq_none_iff]
  have hhttp : Startup.httpError config.toServerConfig answers = none ↔
      (config.http.enabled = true → ListenerAccepts config.http answers.http) := by
    unfold Startup.httpError
    split
    · next henabled => simp [henabled, listenerError_eq_none]
    · next hdisabled => simp [hdisabled]
  have hhttps : Startup.httpsError config.toServerConfig answers = none ↔
      (config.https.enabled = true →
        TlsAccepts config.tls answers.tls ∧ ListenerAccepts config.https answers.https) := by
    unfold Startup.httpsError
    split
    · next henabled =>
        rw [Option.or_eq_none_iff, tlsError_eq_none (hvalid.materials henabled),
          listenerError_eq_none]
        simp [henabled]
    · next hdisabled => simp [hdisabled]
  rw [hhttp, hhttps]
  constructor
  · rintro ⟨hhttp, hhttps⟩
    exact ⟨hhttp, fun henabled => (hhttps henabled).1, fun henabled => (hhttps henabled).2⟩
  · intro h
    exact ⟨h.http, fun henabled => ⟨h.tls henabled, h.https henabled⟩⟩

end

end RecipesCore.Config
