import LanguageClient.Json.Basic

/-!
# Configuration

* `Path.join`, `Path.isBlocked` — paths as texts.
* `Environment` — what the process finds around it; `Environment.snippetDir` and
  `Environment.dataDir` follow from it.
* `ServerCommand`, `ClientConfig` — how the server is launched, and how the client behaves.
* `SessionOptions` — what a session needs of it.
-/

namespace LanguageClient

namespace Path

/-- Whether a path begins at the root. -/
def isAbsolute (path : String) : Bool := path.toList.head? = some '/'

/-- A path continued by another one; an absolute one stands for itself, and a slash at the end of
the first is not doubled. -/
def join (path part : String) : String :=
  if isAbsolute part then part
  else if path.isEmpty || path.toList.getLast? = some '/' then path ++ part
  else path ++ "/" ++ part

/-- The names on a path, without the empty ones and those of the folder itself. -/
def components (path : String) : List String :=
  (path.splitOn "/").filter fun name => name ≠ "" ∧ name ≠ "."

/-- Whether a path through the folders `above`, the innermost first, meets one of some files. Two
dots lead back to the folder above. -/
def meets (files : List (List String)) (above : List String) : List String → Bool
  | [] => false
  | name :: rest =>
      let place := if name = ".." then above.tail else name :: above
      files.contains place.reverse || meets files place rest

/-- Whether a folder cannot be made because its path meets a file that is no folder. -/
def isBlocked (plainFiles : List String) (path : String) : Bool :=
  meets (plainFiles.map components) [] (components path)

end Path

/-- The places of a user's files, as the environment names them. -/
structure Environment where
  home : String
  /-- The folder of configurations, if the environment names one. -/
  configHome? : Option String := none
  /-- The folder of application data, if the environment names one. -/
  dataHome? : Option String := none

/-- The build of the editor that the client belongs to. -/
inductive Channel where
  | stable
  | preview
  deriving DecidableEq, Repr

namespace Channel

/-- The folder that a build keeps for each user. -/
def folder : Channel → String
  | stable => "Code"
  | preview => "Code - Insiders"

/-- The name of a build. -/
def name : Channel → String
  | stable => "Stable"
  | preview => "Preview"

end Channel

namespace Environment

/-- The folder of configurations: the named one when its path is absolute, else one at home. -/
def configDir (env : Environment) : String :=
  match env.configHome? with
  | some dir => if Path.isAbsolute dir then dir else Path.join env.home ".config"
  | none => Path.join env.home ".config"

/-- The folder of the user's snippets. -/
def snippetDir (env : Environment) (channel : Channel) : String :=
  [channel.folder, "User", "snippets", "vls"].foldl Path.join env.configDir

/-- The folder of the client's own data: inside the named one, whatever it is, else at home. -/
def dataDir (env : Environment) : String :=
  Path.join (env.dataHome?.getD (Path.join env.home ".local/share")) "vls-client"

end Environment

/-- How the server is launched. -/
structure ServerCommand where
  program : String
  args : List String := []
  /-- Additional variables of its environment. -/
  env : List (String × String) := []
  /-- Its working directory, if it is another one. -/
  cwd? : Option String := none

/-- How long a server may take to exit after it was asked to, in milliseconds. -/
def defaultStopGrace : Nat := 2000

/-- How long a request may take, in milliseconds. -/
def defaultRequestTimeout : Nat := 30000

/-- The name of the log file. -/
def logFileName : String := "vls-client.log"

/-- The configuration of the client. -/
structure ClientConfig where
  server : ServerCommand
  channel : Channel
  snippetDir : String
  /-- In milliseconds. -/
  stopGrace : Nat := defaultStopGrace
  /-- In milliseconds. -/
  requestTimeout : Nat := defaultRequestTimeout

/-- What a session needs to know. -/
structure SessionOptions where
  /-- The time for a server to acknowledge the shutdown, and again to exit, in milliseconds. -/
  stopGrace : Nat := defaultStopGrace
  /-- In milliseconds. -/
  requestTimeout : Nat := defaultRequestTimeout
  /-- Sent to the server when it is initialized. -/
  initializationOptions : Json := .null

/-- The session options of a configuration: the server learns the snippet folder. -/
def ClientConfig.sessionOptions (config : ClientConfig) : SessionOptions where
  stopGrace := config.stopGrace
  requestTimeout := config.requestTimeout
  initializationOptions := .obj [("globalSnippetDir", .str config.snippetDir)]

end LanguageClient
