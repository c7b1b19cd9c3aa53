import LanguageClient.CommandLine
import LanguageClient.Console
import LanguageClient.Text.Utf8

/-!
# The program on a terminal

The program reads its options, begins to log, and activates the client. Then it obeys the lines of
its input one by one, and deactivates the client at the end.

* `Terminal.startup` — the configuration, or the end before anything has begun.
* `Terminal.lines`, `Terminal.commandsOf` — the commands that the input gives, and how it ends.
* `Terminal.steps`, `Terminal.exitCode` — what the program does, and the code with which it ends.
-/

namespace LanguageClient
namespace Terminal

/-! ### The beginning -/

/-- How the program begins. -/
inductive Startup where
  /-- It ends at once, with a code, after it has written a text. -/
  | ended (exitCode : Nat) (output : String)
  /-- It runs. -/
  | running (config : ClientConfig)

/-- What is written in place of a configuration; complaints do not go to the output. -/
def usageOutput : UsageError → String
  | .help => helpText ++ "\n"
  | .version => versionText ++ "\n"
  | _ => ""

/-- How the program begins with some arguments. It does not run when it cannot log. -/
def startup (args : List String) (env : Environment) (canLog : Bool) : Startup :=
  match Arguments.parse args with
  | .error e => .ended e.exitCode (usageOutput e)
  | .ok options => if canLog then .running (options.config env) else .ended 1 ""

/-! ### The input -/

/-- The lines of an input, without the line feeds that end them. The last line need not end with
one. -/
def lines : List UInt8 → List (List UInt8)
  | [] => []
  | b :: rest =>
      if b = 10 then [] :: lines rest
      else match lines rest with
        | [] => [[b]]
        | line :: others => (b :: line) :: others

/-- How the input comes to an end. -/
inductive InputEnd where
  /-- By the command to leave. -/
  | quit
  /-- There is no more. -/
  | exhausted
  /-- By a line that is no text. -/
  | unreadable
  deriving DecidableEq, Repr

/-- The commands that lines give, and how they end. Nothing is read after the end. -/
def commandsOf : List (List UInt8) → List ConsoleCommand × InputEnd
  | [] => ([], .exhausted)
  | line :: rest =>
      match Text.ofBytes? line with
      | none => ([], .unreadable)
      | some text => match ConsoleCommand.ofLine? text with
          | none => commandsOf rest
          | some .quit => ([], .quit)
          | some command => (command :: (commandsOf rest).1, (commandsOf rest).2)

/-- The commands that an input gives, and how it ends. -/
def readInput (input : List UInt8) : List ConsoleCommand × InputEnd := commandsOf (lines input)

/-! ### The run -/

/-- What the program does. -/
inductive Step where
  /-- It activates the client. -/
  | activate
  /-- It obeys a command. -/
  | obey (command : ConsoleCommand)
  /-- It deactivates the client. -/
  | deactivate

/-- What the program does with an input. An input that cannot be read ends it on the spot. -/
def steps (input : List UInt8) : List Step :=
  match readInput input with
  | (commands, .unreadable) => .activate :: commands.map .obey
  | (commands, _) => .activate :: commands.map .obey ++ [.deactivate]

/-- The code with which the program ends. -/
def exitCode (input : List UInt8) : Nat :=
  if (readInput input).2 = .unreadable then 1 else 0

end Terminal
end LanguageClient
