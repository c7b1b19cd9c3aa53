import LanguageClient.Config
import LanguageClient.Text.Blank

/-!
# The command line

Options are written `--name value` or `--name=value`. The value of an option is taken in when the
next argument that is known comes, or at the end; so an argument that is not known is reported in
preference to a bad value before it.

* `UsageError` — why there is no configuration.
* `Arguments.parse` — the options of an argument list.
* `Arguments.config` — the configuration that they ask for.
-/

namespace LanguageClient

/-- Why a command line gives no configuration: it is wrong, or asks for a text instead. -/
inductive UsageError where
  /-- An argument that is not known here. -/
  | unknownArgument
  /-- A missing value, or an empty one where it may not be. -/
  | invalidValue
  /-- An option that may be given once only. -/
  | repeated
  /-- A value for an option that takes none. -/
  | unneededValue
  /-- A value that is no number of milliseconds. -/
  | notANumber
  /-- The help text is asked for. -/
  | help
  /-- The version is asked for. -/
  | version
  deriving DecidableEq, Repr

/-- The exit code of the program after a usage error. -/
def UsageError.exitCode : UsageError → Nat
  | help => 0
  | version => 0
  | _ => 2

/-- The name and the version of the program. -/
def versionText : String := "vls-client 0.1.0"

/-- The help on the options. As the text of one option is too long for its line, all texts stand
on lines of their own. -/
def helpText : String :=
  "\n".intercalate
    ["Console host for the template language server client", "",
      "Usage: vls-client [OPTIONS]", "",
      "Options:",
      "      --server <SERVER>",
      "          Language server executable [default: vls]",
      "      --server-arg <SERVER_ARGS>",
      "          Extra argument passed to the language server (repeatable)",
      "      --cwd <CWD>",
      "          Working directory of the language server",
      "      --preview",
      "          Use the preview build's snippet directory",
      "      --stop-grace-ms <STOP_GRACE_MS>",
      "          Grace period for the server to exit before it is killed [default: 2000]",
      "      --request-timeout-ms <REQUEST_TIMEOUT_MS>",
      "          Timeout for requests sent to the server [default: 30000]",
      "  -h, --help",
      "          Print help",
      "  -V, --version",
      "          Print version"]

/-- The options of a command line, as far as they are given. -/
structure Arguments where
  server? : Option String := none
  serverArgs : List String := []
  cwd? : Option String := none
  preview : Bool := false
  stopGrace? : Option Nat := none
  requestTimeout? : Option Nat := none

/-- An option that takes a value. -/
inductive ValueOption where
  | server
  | serverArg
  | cwd
  | stopGrace
  | requestTimeout
  deriving DecidableEq, Repr

/-- An option of the command line. -/
inductive CommandOption where
  | valued (option : ValueOption)
  | preview
  | help
  | version

namespace CommandOption

/-- The option of a long name. -/
def ofName? (name : String) : Option CommandOption :=
  [("server", valued .server), ("server-arg", valued .serverArg), ("cwd", valued .cwd),
    ("preview", preview), ("stop-grace-ms", valued .stopGrace),
    ("request-timeout-ms", valued .requestTimeout), ("help", help),
    ("version", version)].lookup name

/-- The option of a letter. -/
def ofLetter? (letter : Char) : Option CommandOption :=
  [('h', help), ('V', version)].lookup letter

end CommandOption

namespace Arguments

/-- Sets a field that may be set once only. -/
def once (old : Option α) (value : Except UsageError α) : Except UsageError (Option α) :=
  match old with
  | some _ => .error .repeated
  | none => value.map some

/-- A number of milliseconds. -/
def milliseconds (value : String) : Except UsageError Nat :=
  match Text.wordOf? value with
  | some n => .ok n
  | none => .error .notANumber

/-- Takes in the value of an option. -/
def withValue (args : Arguments) (option : ValueOption) (value : String) :
    Except UsageError Arguments :=
  match option with
  | .server => (once args.server? (.ok value)).map fun v => { args with server? := v }
  | .serverArg => .ok { args with serverArgs := args.serverArgs ++ [value] }
  | .cwd =>
      (once args.cwd? (if value.isEmpty then .error .invalidValue else .ok value)).map
        fun v => { args with cwd? := v }
  | .stopGrace =>
      (once args.stopGrace? (milliseconds value)).map fun v => { args with stopGrace? := v }
  | .requestTimeout =>
      (once args.requestTimeout? (milliseconds value)).map
        fun v => { args with requestTimeout? := v }

/-- Takes in an option without a value. -/
def withFlag (args : Arguments) : CommandOption → Except UsageError Arguments
  | .preview => if args.preview then .error .repeated else .ok { args with preview := true }
  | .help => .error .help
  | .version => .error .version
  | .valued _ => .error .invalidValue

/-- A command line that has been read in part. -/
structure Scan where
  /-- What has been taken in. -/
  args : Arguments := {}
  /-- The last valued option, and its value if that has come, to be taken in next. -/
  open? : Option (ValueOption × Option String) := none
  /-- Whether `--` has come, after which no option follows. -/
  literal : Bool := false

namespace Scan

/-- Takes in the option that is open. -/
def settle (scan : Scan) : Except UsageError Arguments :=
  match scan.open? with
  | none => .ok scan.args
  | some (_, none) => .error .invalidValue
  | some (option, some value) => scan.args.withValue option value

/-- Takes in an option and the value attached to it. -/
def takeOption (scan : Scan) (option : CommandOption) (value? : Option String) :
    Except UsageError Scan :=
  match option, value? with
  | .valued option, some value => do
      let args ← scan.settle
      let args ← args.withValue option value
      .ok { args := args }
  | .valued option, none => do
      let args ← scan.settle
      .ok { args := args, open? := some (option, none) }
  | _, some _ => .error .unneededValue
  | option, none => do
      let args ← scan.settle
      let args ← args.withFlag option
      .ok { args := args }

/-- Whether the next argument is a value, whatever it is. -/
def takesAnything (scan : Scan) : Bool := scan.open? = some (.serverArg, none)

/-- Reads an argument that is no option. -/
def takeWord (scan : Scan) (word : String) : Except UsageError Scan :=
  match scan.open?, scan.literal with
  | some (option, none), false => .ok { scan with open? := some (option, some word) }
  | _, _ => .error .unknownArgument

/-- Reads one argument. -/
def step (scan : Scan) (word : String) : Except UsageError Scan :=
  if scan.literal then scan.takeWord word
  else if scan.takesAnything then scan.takeWord word
  else match word.toList with
    | ['-', '-'] => .ok { scan with literal := true }
    | '-' :: '-' :: name =>
        let (name, value?) := match Text.splitOnFirst (· = '=') (String.ofList name) with
          | some (name, value) => (name, some value)
          | none => (String.ofList name, none)
        match CommandOption.ofName? name with
        | some option => scan.takeOption option value?
        | none => .error .unknownArgument
    | '-' :: letter :: _ =>
        match CommandOption.ofLetter? letter with
        | some option => scan.takeOption option none
        | none => .error .unknownArgument
    | _ => scan.takeWord word

end Scan

/-- The options of an argument list. -/
def parse (words : List String) : Except UsageError Arguments := do
  let scan ← words.foldlM Scan.step {}
  scan.settle

/-- The configuration that the options ask for. -/
def config (args : Arguments) (env : Environment) : ClientConfig :=
  let channel := if args.preview then .preview else .stable
  { server :=
      { program := args.server?.getD "vls", args := args.serverArgs, cwd? := args.cwd? }
    channel := channel
    snippetDir := env.snippetDir channel
    stopGrace := args.stopGrace?.getD defaultStopGrace
    requestTimeout := args.requestTimeout?.getD defaultRequestTimeout }

end Arguments

end LanguageClient
