import LanguageClient.Simulation.ScriptedServer

/-!
# Ordinary programs in the place of servers

A simulation has no programs of its own. It knows a few that any system has; none of them speaks the
protocol.

* `Program.refusal?` — why a program cannot be launched.
* `Program.script` — what a program does as a server.
-/

namespace LanguageClient
namespace Program

/-- Programs that any system has. -/
def common : List String := ["sh", "cat", "true", "false", "sleep"]

/-- Folders that any system has. -/
def folders : List String :=
  ["/", "/bin", "/dev", "/etc", "/home", "/root", "/tmp", "/usr", "/usr/bin", "/var", ".", ".."]

/-- The name of a program without the usual folders. -/
def baseName (program : String) : String :=
  if program.startsWith "/bin/" || program.startsWith "/usr/bin/" then
    (program.splitOn "/").getLastD ""
  else program

/-- Why a program cannot be launched: it or its working directory does not exist, or it is a
folder. -/
def refusal? (command : ServerCommand) : Option SessionError :=
  if command.cwd?.any fun dir => !folders.contains dir then
    some (.spawn command.program "No such file or directory (os error 2)")
  else if common.contains (baseName command.program) then none
  else if command.program.contains '/' && folders.contains command.program then
    some (.spawn command.program "Permission denied (os error 13)")
  else some (.spawn command.program "No such file or directory (os error 2)")

/-- Whether a program ends at once. -/
def endsAtOnce (command : ServerCommand) : Bool :=
  match baseName command.program, command.args with
  | "true", _ => true
  | "false", _ => true
  | "sleep", [] => true
  | "sh", ["-c", text] =>
      ["exit", "true", "false", ":", ""].contains ((text.splitOn " ").headD "")
  | _, _ => false

/-- What a program does as a server: nothing, unless it ends at once or sends everything back. -/
def script (command : ServerCommand) : ServerScript where
  others := if baseName command.program = "cat" && command.args.isEmpty then .echo else .ignore
  refusal? := refusal? command
  dead := endsAtOnce command

end Program
end LanguageClient
