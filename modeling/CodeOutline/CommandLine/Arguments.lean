import CodeOutline.Run.Basic
import CodeOutline.Text.Split

/-! Command lines. An option is written in full after two hyphens or, where it has a short form, as one
letter after a single hyphen, behind which further letters may follow. Options may come in any order, each at
most once. -/

namespace CodeOutline.CommandLine

/-- An option that is on or off. -/
inductive Switch where
  | all
  | extractOnly
  | verbose
deriving DecidableEq, Repr

/-- An option with a value. -/
inductive Field where
  | target
  | github
  | output
  | apiKey
  | branch
  | config
deriving DecidableEq, Repr

def Field.name : Field → String
  | target => "--target"
  | github => "--github"
  | output => "--output"
  | apiKey => "--api-key"
  | branch => "--branch"
  | config => "--config"

/-- A path cannot be empty. -/
def Field.isPath : Field → Bool
  | target | output | config => true
  | _ => false

inductive Name where
  | switch (s : Switch)
  | field (f : Field)
  | help
  | version
deriving DecidableEq, Repr

namespace Name

def ofLong? : String → Option Name
  | "all" => some (switch .all)
  | "extract-only" => some (switch .extractOnly)
  | "verbose" => some (switch .verbose)
  | "target" => some (field .target)
  | "github" => some (field .github)
  | "output" => some (field .output)
  | "api-key" => some (field .apiKey)
  | "branch" => some (field .branch)
  | "config" => some (field .config)
  | "help" => some help
  | "version" => some version
  | _ => none

def ofShort? : Char → Option Name
  | 'o' => some (field .output)
  | 'v' => some (switch .verbose)
  | 'h' => some help
  | 'V' => some version
  | _ => none

end Name

inductive Misuse where
  | unknownOption (argument : String)
  | repeated (argument : String)
  | missingValue (field : Field)
  | unwantedValue (argument : String)
  | strayArgument (argument : String)
  | noOrigin
  | twoOrigins
deriving DecidableEq, Repr

def Misuse.message : Misuse → String
  | unknownOption argument => "unexpected argument '" ++ argument ++ "' found"
  | repeated argument => "the argument '" ++ argument ++ "' cannot be used multiple times"
  | missingValue field => "a value is required for '" ++ field.name ++ "' but none was supplied"
  | unwantedValue argument => "no value can be given in '" ++ argument ++ "'"
  | strayArgument argument => "unexpected argument '" ++ argument ++ "' found"
  | noOrigin => "one of '--target' and '--github' is required"
  | twoOrigins => "'--target' cannot be used with '--github'"

/-- Why the reading of a command line stops early. -/
inductive Halt where
  | help
  | version
  | misuse (misuse : Misuse)
deriving DecidableEq, Repr

/-- What has been read so far. -/
structure Given where
  switches : List Switch
  fields : List (Field × String)
deriving DecidableEq, Repr

namespace Given

def empty : Given := ⟨[], []⟩

def has (g : Given) (s : Switch) : Bool := g.switches.contains s

def value? (g : Given) (f : Field) : Option String := (g.fields.find? (·.1 == f)).map (·.2)

def addField (g : Given) (f : Field) (argument value : String) : Except Halt Given :=
  if (g.value? f).isSome then .error (.misuse (.repeated argument))
  else if f.isPath ∧ value = "" then .error (.misuse (.missingValue f))
  else .ok { g with fields := g.fields ++ [(f, value)] }

/-- Adds an option that has no value. -/
def addFlag (g : Given) (argument : String) : Name → Except Halt Given
  | .switch s =>
    if g.has s then .error (.misuse (.repeated argument)) else .ok { g with switches := g.switches ++ [s] }
  | .field f => .error (.misuse (.missingValue f))
  | .help => .error .help
  | .version => .error .version

end Given

/-- A single hyphen is an ordinary value. -/
def looksLikeOption (argument : String) : Bool := "-".toList.isPrefixOf argument.toList && argument != "-"

/-- One argument: what it adds, and the field that takes the next argument as its value. -/
abbrev Step := Except Halt (Given × Option Field)

/-- An option in full: its name and, behind an equals sign, its value. -/
def readLong (g : Given) (argument : String) (body : List Char) : Step := do
  match Text.cutFirst? '=' body with
  | some (name, value) =>
    match Name.ofLong? (String.ofList name) with
    | some (.field f) => return (← g.addField f argument (String.ofList value), none)
    | some _ => .error (.misuse (.unwantedValue argument))
    | none => .error (.misuse (.unknownOption argument))
  | none =>
    match Name.ofLong? (String.ofList body) with
    | some (.field f) => return (g, some f)
    | some name => return (← g.addFlag argument name, none)
    | none => .error (.misuse (.unknownOption argument))

/-- Letters after a hyphen. What follows a letter that takes a value is the value; an equals sign may
stand between the two. -/
def readShort (g : Given) (argument : String) : List Char → Step
  | [] => .ok (g, none)
  | letter :: rest => do
    match Name.ofShort? letter with
    | some (.field f) =>
      match rest with
      | [] => return (g, some f)
      | '=' :: value => return (← g.addField f argument (String.ofList value), none)
      | value => return (← g.addField f argument (String.ofList value), none)
    | some name => readShort (← g.addFlag argument name) argument rest
    | none => .error (.misuse (.unknownOption argument))

def readOption (g : Given) (argument : String) : Step :=
  match argument.toList with
  | '-' :: '-' :: body => readLong g argument body
  | _ :: letters => readShort g argument letters
  | [] => .ok (g, none)

/-- Two hyphens end the options; nothing may follow them. -/
def readAfterEnd (g : Given) : List String → Except Halt Given
  | [] => .ok g
  | argument :: _ => .error (.misuse (.strayArgument argument))

/-- Reads the arguments from left to right. `pending` is the field that waits for its value. -/
def readAll (g : Given) : Option Field → List String → Except Halt Given
  | none, [] => .ok g
  | some f, [] => .error (.misuse (.missingValue f))
  | some f, argument :: rest =>
    if looksLikeOption argument then .error (.misuse (.missingValue f))
    else do readAll (← g.addField f argument argument) none rest
  | none, argument :: rest =>
    if argument = "--" then readAfterEnd g rest
    else if looksLikeOption argument then do
      let (g, pending) ← readOption g argument
      readAll g pending rest
    else .error (.misuse (.strayArgument argument))

/-- A complete command line. -/
structure Options where
  origin : Origin
  output : Option String
  apiKey : Option String
  branch : Option String
  config : Option String
  all : Bool
  extractOnly : Bool
  verbose : Bool
deriving DecidableEq, Repr

def Given.origin (g : Given) : Except Halt Origin :=
  match Origin.ofChoices (g.value? .target) (g.value? .github) with
  | .ok origin => .ok origin
  | .error .twoOrigins => .error (.misuse .twoOrigins)
  | .error _ => .error (.misuse .noOrigin)

def Options.read (arguments : List String) : Except Halt Options := do
  let g ← readAll .empty none arguments
  return {
    origin := ← g.origin
    output := g.value? .output
    apiKey := g.value? .apiKey
    branch := g.value? .branch
    config := g.value? .config
    all := g.has .all
    extractOnly := g.has .extractOnly
    verbose := g.has .verbose }

end CodeOutline.CommandLine
