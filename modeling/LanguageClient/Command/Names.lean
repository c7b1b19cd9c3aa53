import LanguageClient.Json.Basic

/-!
# The commands of the client

* the names of the five commands;
* `stringArg?` — a text among the arguments of a command.
-/

namespace LanguageClient

namespace CommandName

/-- Show the folder of the user's snippets. -/
def openSnippetFolder : String := "vls.openUserScaffoldSnippetFolder"

/-- Restart the language server. -/
def restartServer : String := "vls.restartServer"

/-- Bring the output channel to the front. -/
def showOutput : String := "vls.showOutputChannel"

/-- Show the virtual file of a source. -/
def showVirtualFile : String := "vls.showCorrespondingVirtualFile"

/-- Show a report on a file. -/
def showDoctor : String := "vls.showDoctorInfo"

end CommandName

/-- The text at a position among the arguments; none when there is no argument, or no text. -/
def stringArg? (args : List Json) (index : Nat) : Option String := args[index]?.bind Json.asString?

end LanguageClient
