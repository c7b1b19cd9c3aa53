import LanguageClient.Simulation.ClientRun
import LanguageClient.Simulation.Program
import LanguageClient.Terminal

/-!
# The program in virtual time

* `Rehearsal.orderOf` — a step of the program as an order.
* `Rehearsal.output` — all that the program writes.
-/

namespace LanguageClient
namespace Rehearsal

/-- A step of the program as an order. -/
def orderOf : Terminal.Step → Order
  | .activate => .call .activate
  | .obey (.run id args) => .call (.command id args true)
  | .obey (.cat uri) => .cat uri
  | .obey (.openDocument uri) => .activeDocument (some uri)
  | .obey .quit => .join []
  | .deactivate => .deactivate

/-- How long a server program pauses before each action. -/
def programPace : Nat := 20

/-- A client of a configuration, with the programs that it launches. -/
def ofConfig (config : ClientConfig) (script : ServerScript) : Rehearsal where
  client := .new config.sessionOptions 0 { snippetDir := config.snippetDir }
  scripts := [script]
  pace := programPace
  separateStreams := true

/-- All that the program writes with a configuration and an input. -/
def output (config : ClientConfig) (script : ServerScript) (input : List UInt8) : String :=
  let last := (Terminal.steps input).foldl (fun s step => (carryOut s (orderOf step)).1)
    (⟨ofConfig config script, []⟩ : Schedule Rehearsal Task)
  last.state.client.workspace.console.output

end Rehearsal
end LanguageClient
