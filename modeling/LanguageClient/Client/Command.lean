import LanguageClient.Client.Lifecycle
import LanguageClient.Client.Request

/-!
# Commands and activation

* `Client.isHeld` — whether somebody holds on to the client.
* `Client.runCommand` — what each command does first.
* `Client.activate` — sets up the workspace and begins the first session.
-/

namespace LanguageClient
namespace Client

/-- The title of the indicator of the first start. -/
def startTitle : String := "VLS initialization"

/-- The title of the indicator of a restart. -/
def restartTitle : String := "VLS restart"

/-- Whether somebody holds on to the client: its owner, or the caller of an operation on it. -/
def isHeld (c : Client) : Bool := !c.released || c.calls.any Call.holdsClient

/-- The document that a command is about: its first argument, or the active one. -/
def subject? (c : Client) (args : List Json) : Option String :=
  stringArg? args 0 <|> c.workspace.console.active

/-- Runs a command about a document; without one the user is told so. -/
def runAbout (c : Client) (call : Nat) (id : String) (args : List Json) (hint : String)
    (run : String → Client) : Client :=
  match c.subject? args with
  | none => (c.say (.showInformation hint)).finishCommand call (.ok ())
  | some subject =>
      if c.isHeld then run subject
      else c.finishCommand call (.error (.failed id "Client is deactivated"))

/-- Runs a command. -/
def runCommand (c : Client) (call : Nat) (id : String) (args : List Json) : CommandAction → Client
  | .openSnippetFolder =>
      let dir := c.workspace.snippetDir
      if Path.isBlocked c.workspace.plainFiles dir then
        c.finishCommand call (.error (.failed id ("Failed to create snippet folder " ++ dir)))
      else (c.say (.openFolder dir)).finishCommand call (.ok ())
  | .restartServer =>
      if c.isHeld then (c.beginProgress call restartTitle).askTurn call .restart
      else c.finishCommand call (.error (.failed id "Client is deactivated"))
  | .showOutput => (c.say .showOutput).finishCommand call (.ok ())
  | .showVirtualFile =>
      c.runAbout call id args "Open a component file to show its virtual file" fun source =>
        c.askSession call Method.queryVirtualFileInfo (queryParams source) (.virtualFile source)
  | .showDoctor =>
      c.runAbout call id args "Open a component file to run the doctor" fun file =>
        c.askSession call Method.doctor (doctorParams file) .doctor

/-- Sets the workspace up and begins the first session under an indicator. -/
def activate (c : Client) (call : Nat) : Client :=
  let c := c.say (.registerContentProvider virtualScheme)
  let c := c.registerCommand CommandName.openSnippetFolder .openSnippetFolder
  let c := c.registerCommand CommandName.restartServer .restartServer
  ((c.onReady .wire).beginProgress call startTitle).askTurn call .activate

end Client
end LanguageClient
