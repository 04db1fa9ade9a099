import CodeOutline.CommandLine.Screen
import CodeOutline.Config.Load
import CodeOutline.Model.Provider
import CodeOutline.Outline.Json
import CodeOutline.Run.Report

/-! The whole command: from its arguments and its surroundings to what it prints, what it leaves on the
disk and its exit status. -/

namespace CodeOutline.CommandLine

structure Surroundings where
  disk : Disk
  env : Environment
  network : Http.Network
  /-- The standard input. -/
  input : List UInt8

/-- Why a well-formed command fails. -/
inductive Failure where
  | config (failure : Config.Failure)
  | missingKey (provider : String)
  | provider (failure : Model.Failure)
  | run (failure : Run.Failure)
deriving DecidableEq, Repr

/-- The text of a failure. What a library would word is said in general words. -/
def Failure.message : Failure → String
  | config failure => "failed to load config: " ++ failure.message?.getD "not valid TOML"
  | missingKey name => "no API key found for provider '" ++ name ++ "'"
  | provider failure => failure.message?.getD "request failed"
  | run failure => failure.message?.getD "request failed"

structure Ending where
  status : Nat
  /-- All that was printed. -/
  output : String
  /-- Why the command failed, if it did. -/
  complaint : Option String
  /-- The disk and the conversation as they are left. -/
  final : Run.State

namespace Options

/-- The options of the command line win over the configuration. -/
def amend (o : Options) (config : Config) : Config := { config with
  model := { config.model with apiKey := o.apiKey <|> config.model.apiKey }
  repository := { config.repository with branch := o.branch.getD config.repository.branch }
  output := ⟨o.output.getD config.output.folder⟩ }

def configFor (o : Options) (d : Disk) (env : Environment) : Except Config.Failure Config :=
  (match o.config with
    | some path => Config.ofFile d env path
    | none => Config.load d env).map o.amend

def toRun (o : Options) (config : Config) : Run.Options := ⟨o.origin, config.output.folder, o.all, o.extractOnly⟩

end Options

/-- The model that the configuration names, once a key is there for it. -/
def modelFor (config : Config.Model) (env : Environment) : Except Failure Model := do
  if (config.apiKeyOrEnv env).isNone && !config.isKeyless then .error (.missingKey config.provider)
  else
    match (Model.Provider.ofConfig config env).bind (·.client env) with
    | .ok client => return client.toModel
    | .error failure => .error (.provider failure)

def Surroundings.setting (w : Surroundings) (config : Config) : Run.Setting :=
  .ofConfig config w.env w.network w.input

/-- The outcome of a command together with all it printed and left behind. -/
abbrev Outcome := Except Failure Unit × String × Run.State

def Surroundings.untouched (w : Surroundings) (failure : Failure) : Outcome := (.error failure, "", .start w.disk)

/-- Prints the outlines as one JSON text. -/
def extract (w : Surroundings) (config : Config) (options : Run.Options) : Outcome :=
  let (result, final) := Run.perform (w.setting config) options none (.start w.disk)
  match result with
  | .ok report => (.ok (), transcript true final ++ Outline.prettyList report.parsed ++ "\n", final)
  | .error failure => (.error (.run failure), transcript true final, final)

def document (w : Surroundings) (config : Config) (options : Run.Options) (model : Model) : Outcome :=
  let (result, final) := Run.perform (w.setting config) options (some model) (.start w.disk)
  let shown := banner config options.origin ++ transcript false final
  match result with
  | .ok report => (.ok (), shown ++ summary report, final)
  | .error failure => (.error (.run failure), shown, final)

def Options.perform (o : Options) (w : Surroundings) : Outcome :=
  match o.configFor w.disk w.env with
  | .error failure => w.untouched (.config failure)
  | .ok config =>
    if o.extractOnly then extract w config (o.toRun config)
    else
      match modelFor config.model w.env with
      | .error failure => w.untouched failure
      | .ok model => document w config (o.toRun config) model

/-- The exit status is 0 for success, 1 for a failure and 2 for a command line that is not understood. -/
def run (arguments : List String) (w : Surroundings) : Ending :=
  match Options.read arguments with
  | .error .help => ⟨0, helpText, none, .start w.disk⟩
  | .error .version => ⟨0, versionText, none, .start w.disk⟩
  | .error (.misuse misuse) => ⟨2, "", some misuse.message, .start w.disk⟩
  | .ok options =>
    let (result, output, final) := options.perform w
    match result with
    | .ok () => ⟨0, output, none, final⟩
    | .error failure => ⟨1, output, some failure.message, final⟩

end CodeOutline.CommandLine
