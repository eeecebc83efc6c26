import FeedAudit.Settings.Loading

/-!
# Which layer decides a setting

Settings are loaded from a file, or start from the defaults where there is none; the environment
goes before the file and the command line before both. Field by field this makes the settings that
the three layers *settle* (`Settings.settled`): the first layer that says something about a field
decides it, and no layer changes a field that it says nothing about. A variable whose value cannot
be read ends the loading, whatever the command line says about its setting.

Main statement: `load_of_layers`.
-/

namespace FeedAudit

/-! ## Values of variables -/

/-- What decides a setting: the command line, or else its variable, or else the file. -/
def firstSaid {α : Type} (given fromVariable : Option α) (inFile : α) : α :=
  given.getD (fromVariable.getD inFile)

namespace Environment

/-- What a variable says about its setting, if it is set and can be read. -/
def said {α : Type} (env : Environment) (setting : String) (read : String → Option α) : Option α :=
  (env (variableName setting)).bind read

/-- The settings whose variables have to be read, in the order in which this is done, and whether a
text can be read. -/
def readings : List (String × (String → Bool)) :=
  [("TIMEOUT", fun text => (read64 text).isSome),
    ("RETRY_ATTEMPTS", fun text => (read32 text).isSome),
    ("LIMIT", fun text => (readLimit text).isSome),
    ("VERBOSE", fun text => (readTruth text).isSome),
    ("QUIET", fun text => (readTruth text).isSome),
    ("PARALLEL", fun text => (readTruth text).isSome)]

/-- The error of a variable that is set to a text that cannot be read. -/
def misreading (env : Environment) (setting : String) (reads : String → Bool) :
    Option SettingsError :=
  (env (variableName setting)).bind fun text =>
    if reads text then none else some (.environment (variableName setting) text)

/-- The error of the first variable that cannot be read. -/
def firstMisreading (env : Environment) : Option SettingsError :=
  readings.findSome? fun reading => env.misreading reading.1 reading.2

variable {env : Environment}

/-- A variable is read as what it says, or as the error of its misreading. -/
theorem value_eq {α : Type} (setting : String) (read : String → Option α) :
    env.value setting read =
      match env.misreading setting (fun text => (read text).isSome) with
      | some e => .error e
      | none => .ok (env.said setting read) := by
  unfold value misreading said
  cases env (variableName setting) with
  | none => rfl
  | some text => cases hread : read text <;> simp [hread]

/-- A variable of any text is always read. -/
@[simp] theorem misreading_some (setting : String) :
    env.misreading setting (fun text => (some text).isSome) = none := by
  unfold misreading
  cases env (variableName setting) <;> rfl

/-- A variable is set to a value that cannot be read. -/
def Misreads (env : Environment) (name value : String) : Prop :=
  env name = some value ∧ ∃ reading ∈ readings, variableName reading.1 = name ∧
    reading.2 value = false

/-- The variable that ends the reading cannot be read. -/
theorem misreads_of_firstMisreading {e : SettingsError} (h : env.firstMisreading = some e) :
    ∃ name value, env.Misreads name value ∧ e = .environment name value := by
  obtain ⟨reading, hmem, hmisread⟩ := List.exists_of_findSome?_eq_some h
  obtain ⟨value, hset, hmisread⟩ := Option.bind_eq_some_iff.mp hmisread
  split at hmisread
  · cases hmisread
  · rename_i hreads
    cases hmisread
    exact ⟨variableName reading.1, value,
      ⟨hset, reading, hmem, rfl, eq_false_of_ne_true hreads⟩, rfl⟩

/-- A variable that cannot be read ends the reading, if no other one does before. -/
theorem exists_firstMisreading {name value : String} (h : env.Misreads name value) :
    ∃ e, env.firstMisreading = some e := by
  obtain ⟨hset, reading, hmem, rfl, hreads⟩ := h
  refine Option.ne_none_iff_exists'.mp fun hnone => ?_
  have hread := List.findSome?_eq_none_iff.mp hnone reading hmem
  simp [misreading, hset, hreads] at hread

end Environment

/-! ## Settled settings -/

namespace Settings

/-- The settings that a file, the environment and the command line settle. The channels and the
file of feeds have no variable, the delay of a retry has no option either, and verbose and quiet
are decided together where the command line gives one of them. -/
def settled (file : Settings) (env : Environment) (a : Arguments) : Settings where
  run := {
    channel := firstSaid a.channel (env.said "CHANNEL" some) file.run.channel
    limit := firstSaid a.limit (env.said "LIMIT" readLimit) file.run.limit }
  source := {
    domain := (a.domain.or (env.said "DOMAIN" some)).or file.source.domain
    apiKey := (a.apiKey.or (env.said "API_KEY" some)).or file.source.apiKey
    inputFile := a.inputFile.or file.source.inputFile
    timeoutSeconds := firstSaid a.timeout (env.said "TIMEOUT" read64) file.source.timeoutSeconds
    retryAttempts :=
      firstSaid a.retryAttempts (env.said "RETRY_ATTEMPTS" read32) file.source.retryAttempts
    retryDelayMillis := file.source.retryDelayMillis }
  channels := file.channelsWith a.specs
  output := {
    reportDir := firstSaid a.outputDir (env.said "OUTPUT_DIR" some) file.output.reportDir
    logDir := firstSaid a.logDir (env.said "LOG_DIR" some) file.output.logDir
    verbose :=
      if a.quiet then false
      else if a.verbose then true
      else (env.said "VERBOSE" readTruth).getD file.output.verbose
    quiet :=
      if a.quiet then true
      else if a.verbose then false
      else (env.said "QUIET" readTruth).getD file.output.quiet }
  parallel :=
    if a.parallel then true else (env.said "PARALLEL" readTruth).getD file.parallel

/-- A file put in front of the defaults is as it is alone. -/
theorem overriddenBy_defaults (file : Settings) : ({} : Settings).overriddenBy file = file := by
  have hchannels : (if file.channels.isEmpty then [] else file.channels) = file.channels := by
    cases file.channels <;> rfl
  unfold overriddenBy
  simp only [Option.or_none, hchannels]

/-- The environment is read up to the first variable that cannot be. -/
theorem withEnvironment_eq (file : Settings) (env : Environment) :
    file.withEnvironment env =
      match env.firstMisreading with
      | some e => .error e
      | none => .ok (settled file env {}) := by
  unfold Environment.firstMisreading withEnvironment
  simp only [Environment.value_eq, Environment.misreading_some, Environment.readings,
    List.findSome?_cons, List.findSome?_nil, bind, Except.bind]
  cases env.misreading "TIMEOUT" fun text => (read64 text).isSome with
  | some e => rfl
  | none =>
  cases env.misreading "RETRY_ATTEMPTS" fun text => (read32 text).isSome with
  | some e => rfl
  | none =>
  cases env.misreading "LIMIT" fun text => (readLimit text).isSome with
  | some e => rfl
  | none =>
  cases env.misreading "VERBOSE" fun text => (readTruth text).isSome with
  | some e => rfl
  | none =>
  cases env.misreading "QUIET" fun text => (readTruth text).isSome with
  | some e => rfl
  | none =>
  cases env.misreading "PARALLEL" fun text => (readTruth text).isSome with
  | some e => rfl
  | none => rfl

/-- Neither the environment nor an empty command line says anything about the channels, so that
entries are added to those of the file. -/
theorem channelsWith_settled (file : Settings) (env : Environment) (entries : List ChannelEntry) :
    (settled file env {}).channelsWith entries = file.channelsWith entries := rfl

/-- The command line goes before what the file and the environment settle. -/
theorem withArguments_settled (file : Settings) (env : Environment) (a : Arguments) :
    (settled file env {}).withArguments a = settled file env a := by
  have hloud : (settled file env {}).loudness a =
      ((settled file env a).output.verbose, (settled file env a).output.quiet) := by
    unfold loudness settled
    cases a.quiet <;> cases a.verbose <;> rfl
  have hparallel : (a.parallel || (settled file env {}).parallel) =
      (settled file env a).parallel := by
    unfold settled
    cases a.parallel <;> rfl
  unfold withArguments
  rw [hloud, hparallel, channelsWith_settled]
  simp only [settled, firstSaid, Option.getD_none, Option.none_or, Option.or_assoc]

/-- The three layers come to what they settle if that is valid. -/
theorem layered_eq (file : Settings) (env : Environment) (a : Arguments) :
    layered (some file) env a =
      match env.firstMisreading with
      | some e => .error e
      | none => (settled file env a).validate.map fun _ => settled file env a := by
  unfold layered
  dsimp only
  rw [overriddenBy_defaults, withEnvironment_eq]
  cases env.firstMisreading with
  | some e => rfl
  | none =>
    simp only [bind, Except.bind]
    rw [withArguments_settled]
    cases (settled file env a).validate <;> rfl

/-! ## Loading -/

section Loading

variable {m : Type → Type} [Monad m]

/-- The settings of the file that is loaded, or the defaults where there is none. -/
def fileSettings (files : FileAccess m) (userDir : Option String) (a : Arguments) :
    m (Except SettingsError Settings) := do
  match ← filePath? files userDir a with
  | none => return .ok {}
  | some path => ofPath files path

/-- Behind the file nothing but the layers decides what is loaded. -/
theorem load_eq [LawfulMonad m] (files : FileAccess m) (userDir : Option String)
    (env : Environment) (a : Arguments) :
    load files userDir env a =
      (fun loaded => loaded.bind fun file => layered (some file) env a) <$>
        fileSettings files userDir a := by
  unfold load fileSettings
  rw [map_bind]
  refine bind_congr fun path => ?_
  cases path with
  | none =>
    rw [map_pure]
    rfl
  | some path =>
    dsimp only
    rw [map_eq_pure_bind]
    refine bind_congr fun loaded => ?_
    cases loaded <;> rfl

/-- What is loaded follows from the file, or the defaults where there is none. Field by field it is
what the first layer says that says something; but a variable that is set to what cannot be read
ends the loading, even where the command line goes before it. -/
theorem load_of_layers [LawfulMonad m] (files : FileAccess m) (userDir : Option String)
    (env : Environment) (a : Arguments) :
    load files userDir env a =
        (fun loaded => loaded.bind fun file => layered (some file) env a) <$>
          fileSettings files userDir a ∧
      (∀ file s, layered (some file) env a = .ok s → s = settled file env a) ∧
      ∀ file, (∃ name value, env.Misreads name value) →
        ∃ name value, env.Misreads name value ∧
          layered (some file) env a = .error (.environment name value) := by
  refine ⟨load_eq files userDir env a, fun file s hloaded => ?_, fun file hmisreads => ?_⟩
  · rw [layered_eq] at hloaded
    split at hloaded
    · cases hloaded
    · cases hvalid : (settled file env a).validate with
      | error e =>
        rw [hvalid] at hloaded
        cases hloaded
      | ok _ =>
        rw [hvalid] at hloaded
        cases hloaded
        rfl
  · obtain ⟨_, _, hmisreads⟩ := hmisreads
    obtain ⟨e, hfirst⟩ := Environment.exists_firstMisreading hmisreads
    obtain ⟨name, value, hfault, rfl⟩ := Environment.misreads_of_firstMisreading hfirst
    refine ⟨name, value, hfault, ?_⟩
    rw [layered_eq, hfirst]

end Loading

/-! ## A file, two variables and two options -/

/-- A directory that holds one settings file. -/
def oneSettingsFile : FileAccess Id where
  readText _ :=
    .ok "[source]\ninput_file = 'feed.xml'\n[output]\nquiet = true\n[run]\nlimit = 5\n"
  exists_ path := path == ".validate-feed.toml"

/-- What the file says. -/
def quietlyFive : Settings where
  run := { limit := 5 }
  source := { inputFile := some "feed.xml" }
  output := { quiet := true }

def gamesUpTo (limit : String) : Environment :=
  .ofList [("VALIDATE_FEED_LIMIT", limit), ("VALIDATE_FEED_CHANNEL", "game")]

def filmsVerbosely : Arguments := { channel := some "movie", verbose := true }

/-- An option goes before a variable and a variable before the file; a limit that cannot be read
ends the loading. -/
theorem load_of_layers_oneSettingsFile :
    (∃ s, load oneSettingsFile none (gamesUpTo "ALL") filmsVerbosely = pure (.ok s) ∧
      s = settled quietlyFive (gamesUpTo "ALL") filmsVerbosely ∧
      s.run = ⟨"movie", 0⟩ ∧ s.output.verbose = true ∧ s.output.quiet = false) ∧
    ∃ name value, load oneSettingsFile none (gamesUpTo "some") filmsVerbosely =
      pure (.error (.environment name value)) := by
  have hfile : fileSettings oneSettingsFile none filmsVerbosely = pure (.ok quietlyFive) := by
    have hread : (fileSettings oneSettingsFile none filmsVerbosely).run.toOption =
        some quietlyFive := by decide +kernel
    generalize fileSettings oneSettingsFile none filmsVerbosely = loaded at hread ⊢
    cases hloaded : loaded.run with
    | error e =>
      rw [hloaded] at hread
      cases hread
    | ok file =>
      rw [hloaded] at hread
      cases hread
      exact hloaded
  constructor
  · obtain ⟨hload, hsettled, -⟩ :=
      load_of_layers oneSettingsFile none (gamesUpTo "ALL") filmsVerbosely
    rw [hfile, map_pure] at hload
    cases hlayered : layered (some quietlyFive) (gamesUpTo "ALL") filmsVerbosely with
    | error e =>
      have hok : (layered (some quietlyFive) (gamesUpTo "ALL") filmsVerbosely).isOk = true := by
        decide +kernel
      rw [hlayered] at hok
      cases hok
    | ok s =>
      obtain rfl := hsettled quietlyFive s hlayered
      refine ⟨_, ?_, rfl, by decide +kernel, by decide +kernel, by decide +kernel⟩
      rw [hload]
      exact congrArg pure hlayered
  · obtain ⟨hload, -, hmisread⟩ :=
      load_of_layers oneSettingsFile none (gamesUpTo "some") filmsVerbosely
    have hlimit : (gamesUpTo "some").Misreads "VALIDATE_FEED_LIMIT" "some" :=
      ⟨by decide, _, List.mem_of_getElem? (i := 2) rfl, by decide, by decide +kernel⟩
    obtain ⟨name, value, -, herror⟩ := hmisread quietlyFive ⟨_, _, hlimit⟩
    refine ⟨name, value, ?_⟩
    rw [hload, hfile, map_pure]
    exact congrArg pure herror

end Settings

end FeedAudit
