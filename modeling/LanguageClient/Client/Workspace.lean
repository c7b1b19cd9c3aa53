import LanguageClient.Command.Registry
import LanguageClient.Console
import LanguageClient.Progress
import LanguageClient.Router

/-!
# The workspace of the client

The workspace is what the client does for its host.

* `Handler`, `Hook`, `CommandAction` — what notifications, ready sessions and commands set off.
* `Workspace` — store, router, commands, progress and the host.
-/

namespace LanguageClient

/-! ### What is set off -/

/-- What a notification sets off. -/
inductive Handler where
  /-- Open an address in the host. -/
  | openWebsite
  /-- Keep a virtual file. -/
  | showVirtualFile
  /-- Add a message to the output channel. -/
  | message
  /-- Note the parameters, whatever they are. -/
  | observe (tag : String)
  deriving DecidableEq, Repr

/-- What a session that has become ready sets off. -/
inductive Hook where
  /-- Note the generation. -/
  | observe (tag : String)
  /-- Bind the handlers, the language configuration and the commands. -/
  | wire
  /-- Add a further hook. -/
  | enroll (hook : Hook)
  deriving DecidableEq, Repr

/-- What a command sets off. -/
inductive CommandAction where
  | openSnippetFolder
  | restartServer
  | showOutput
  | showVirtualFile
  | showDoctor
  deriving DecidableEq, Repr

/-! ### The workspace -/

/-- What the client does for its host. -/
structure Workspace where
  store : VirtualStore := {}
  router : Router Handler := {}
  commands : Registry CommandAction := {}
  progress : Progress := {}
  /-- The host as a terminal. -/
  console : Console := {}
  /-- Whether the commands that need a session have been registered. -/
  hasSessionCommands : Bool := false
  /-- The folder of the user's snippets. -/
  snippetDir : String := ""
  /-- The files of the file system that are no folders. -/
  plainFiles : List String := []

end LanguageClient
