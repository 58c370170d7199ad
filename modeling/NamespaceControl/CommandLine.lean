import NamespaceControl.Config.Saved
import NamespaceControl.ControlPlane
import NamespaceControl.LogFilter

/-!
# The command line

The options that the program is started with, how it starts from them and from its surroundings,
and the code it exits with.

An option has a long name, and most have a short one. Short ones may stand together behind one
dash. A value may stand right behind a short option, behind an equals sign, or as the next
argument, which then must not look like an option. Every option is given at most once, but for the
one that asks for more logging, and there are no other arguments.
-/

namespace NamespaceControl

/-! ## Options -/

/-- What the program was asked for. -/
structure Options where
  /-- The file with the configuration. -/
  config : Option String
  /-- The user to open the session for. -/
  user : Option String
  /-- How often more logging was asked for. -/
  verbosity : Nat
  /-- True if responses are written as JSON. -/
  json : Bool
  /-- True if prompts are not shown. -/
  batch : Bool
  deriving DecidableEq, Repr

/-- The options by name. -/
inductive OptionName where
  /-- The file with the configuration. -/
  | config
  /-- The user. -/
  | user
  /-- More logging. -/
  | verbose
  /-- Responses as JSON. -/
  | json
  /-- No prompts. -/
  | batch
  deriving DecidableEq, Repr

namespace OptionName

/-- Every option. -/
def all : List OptionName := [config, user, verbose, json, batch]

/-- The long name of an option. -/
def long : OptionName → String
  | config => "config"
  | user => "user"
  | verbose => "verbose"
  | json => "json"
  | batch => "batch"

/-- The short name of an option, if it has one. -/
def short? : OptionName → Option Char
  | config => some 'c'
  | user => some 'u'
  | verbose => some 'v'
  | json => none
  | batch => none

/-- True if an option takes a value. -/
def takesValue : OptionName → Bool
  | config => true
  | user => true
  | verbose => false
  | json => false
  | batch => false

/-- The option with a long name. -/
def ofLong? (name : String) : Option OptionName := all.find? (·.long = name)

/-- The option with a short name. -/
def ofShort? (c : Char) : Option OptionName := all.find? (·.short? = some c)

end OptionName

namespace Options

/-- Nothing was asked for. -/
def none : Options := ⟨.none, .none, 0, false, false⟩

/-- The user for whom the session is opened. -/
def username (o : Options) : String := o.user.getD "admin"

/-- The options with a value for one of them. A file must have a name. -/
def assign? (o : Options) (name : OptionName) (value : String) : Option Options :=
  match name with
  | .config =>
    if o.config.isSome ∨ value = "" then .none else some { o with config := some value }
  | .user => if o.user.isSome then .none else some { o with user := some value }
  | _ => .none

/-- The options with one more that takes no value. -/
def raise? (o : Options) (name : OptionName) : Option Options :=
  match name with
  | .verbose => some { o with verbosity := o.verbosity + 1 }
  | .json => if o.json then .none else some { o with json := true }
  | .batch => if o.batch then .none else some { o with batch := true }
  | _ => .none

/-! ## Arguments -/

/-- What an argument leads to. -/
inductive Progress where
  /-- The argument is done with. -/
  | done (o : Options)
  /-- The next argument is the value of an option. -/
  | needsValue (o : Options) (name : OptionName)

/-- Take an option without a value behind it. -/
def takeBare? (o : Options) (name : OptionName) : Option Progress :=
  if name.takesValue then some (.needsValue o name) else (o.raise? name).map .done

/-- Take a long option, without its dashes. -/
def takeLong? (o : Options) (text : List Char) : Option Progress := do
  let name ← OptionName.ofLong? (String.ofList (text.takeWhile (· != '=')))
  match text.dropWhile (· != '=') with
  | _ :: value => return .done (← o.assign? name (String.ofList value))
  | [] => o.takeBare? name

/-- Take short options, without their dash. -/
def takeShort? (o : Options) : List Char → Option Progress
  | [] => some (.done o)
  | c :: rest => do
    let name ← OptionName.ofShort? c
    if name.takesValue then
      match rest with
      | [] => o.takeBare? name
      | '=' :: value => return .done (← o.assign? name (String.ofList value))
      | value => return .done (← o.assign? name (String.ofList value))
    else takeShort? (← o.raise? name) rest

/-- Take one argument. -/
def take? (o : Options) (arg : String) : Option Progress :=
  match arg.toList with
  | '-' :: '-' :: text => o.takeLong? text
  | '-' :: c :: rest => o.takeShort? (c :: rest)
  | _ => .none

/-- True for an argument that can be the value of the option before it. -/
def isValue (arg : String) : Bool := arg = "-" || arg.toList.head? != some '-'

/-- The options that arguments give, on top of others. Two dashes by themselves end the options,
and nothing may follow. -/
def parseFrom? (o : Options) : List String → Option Options
  | [] => some o
  | "--" :: rest => if rest.isEmpty then some o else .none
  | arg :: rest =>
    match o.take? arg with
    | some (.done o') => parseFrom? o' rest
    | some (.needsValue o' name) =>
      match rest with
      | value :: rest' =>
        match if isValue value then o'.assign? name value else .none with
        | some o'' => parseFrom? o'' rest'
        | .none => .none
      | [] => .none
    | .none => .none

/-- The options that arguments give. -/
def parse? (args : List String) : Option Options := none.parseFrom? args

end Options

/-! ## Starting -/

/-- What surrounds a start of the program. -/
structure Surroundings where
  /-- The variables of the environment. -/
  environment : String → Option String
  /-- The bytes of a file, if there is such a file. -/
  file : String → Option (List UInt8)

/-- The variable that says what to log, if it is a filter. -/
def logVariable : String := "RUST_LOG"

/-- Why the program does not start. -/
inductive StartFault where
  /-- The configuration, the filter for the log or the user cannot be used. -/
  | unusable
  /-- Reading the filter for the log broke off. -/
  | brokenOff
  deriving DecidableEq, Repr

namespace StartFault

/-- The fault behind a fault of the filter. -/
def ofFilter : LogFilter.Fault → StartFault
  | .malformed => unusable
  | .brokenCharacter => brokenOff

/-- What is needed for a start, if it is there. -/
def unlessSome {α : Type} : Option α → Except StartFault α
  | some a => .ok a
  | none => .error unusable

end StartFault

/-- What the program was started with and what it works on. -/
structure Started where
  /-- The control plane. -/
  plane : ControlPlane
  /-- The session. -/
  session : Session
  /-- The console. -/
  console : Console

namespace Options

/-- The configuration: from the file or the defaults, then from the environment, then from the
options. -/
def config? (o : Options) (around : Surroundings) : Option Config := do
  let base ← match o.config with
    | some path => (Config.load (around.file path)).toOption
    | .none => some Config.default
  let c := base.override around.environment
  return match o.verbosity with
    | 0 => c
    | 1 => { c with logLevel := "debug" }
    | _ => { c with logLevel := "trace" }

/-- Check what to log: the variable of the environment decides, unless it has not the form of a
filter. -/
def checkLogging (around : Surroundings) (c : Config) : Except LogFilter.Fault Unit :=
  match (around.environment logVariable).map LogFilter.check with
  | some (.ok ()) => .ok ()
  | some (.error .brokenCharacter) => .error .brokenCharacter
  | _ => LogFilter.check c.logLevel

/-- Start with the given options. -/
def start (o : Options) (around : Surroundings) : Except StartFault Started := do
  let c ← StartFault.unlessSome (o.config? around)
  (checkLogging around c).mapError StartFault.ofFilter
  let plane ← StartFault.unlessSome (ControlPlane.ofConfig c).toOption
  let session ← StartFault.unlessSome (plane.openSession o.username).toOption
  return ⟨plane, session, plane.console (!o.batch) (if o.json then .json else .text)⟩

end Options

/-! ## Running -/

/-- The code for a run that went well. -/
def exitSuccess : Nat := 0

/-- The code for a program that does not start, or whose run breaks off. -/
def exitFailure : Nat := 1

/-- The code for arguments that make no sense. -/
def exitUsage : Nat := 2

/-- The code for a program that breaks off. -/
def exitBrokenOff : Nat := 101

/-- The code for a program that does not start. -/
def StartFault.exitCode : StartFault → Nat
  | unusable => exitFailure
  | brokenOff => exitBrokenOff

/-- The code for the end of a run. -/
def Ending.exitCode : Ending → Nat
  | done => exitSuccess
  | brokenPipe => exitFailure
  | invalidData => exitFailure

/-- The exit code and the output of the program, for its arguments, surroundings and input. -/
def runProgram (args : List String) (around : Surroundings) (input : List UInt8) :
    Nat × List UInt8 :=
  match Options.parse? args with
  | none => (exitUsage, [])
  | some o =>
    match o.start around with
    | .error fault => (fault.exitCode, [])
    | .ok started =>
      let result := started.console.run started.plane.namespaces started.session .unlimited input
      (result.ending.exitCode, result.sink.written)

end NamespaceControl
