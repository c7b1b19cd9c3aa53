import LanguageClient.Json.Basic

/-!
# The host

The host is the editor, or a terminal, in which the client runs. `HostCall` is everything the client
asks of it.
-/

namespace LanguageClient

/-- Where a progress indicator is shown. -/
inductive ProgressLocation where
  | window
  | notification
  | sourceControl
  deriving DecidableEq, Repr, Inhabited

/-- What the client asks of its host. -/
inductive HostCall where
  /-- Open an address outside. -/
  | openExternal (url : String)
  /-- Show a folder of the file system. -/
  | openFolder (path : String)
  /-- Show the document of a uri. -/
  | showDocument (uri : String)
  /-- Show a new document. -/
  | showUntitled (content language : String)
  /-- Show a notice. -/
  | showInformation (message : String)
  /-- Add a line to the output channel. -/
  | appendOutput (line : String)
  /-- Bring the output channel to the front. -/
  | showOutput
  /-- Begin a progress indicator. -/
  | beginProgress (id : Nat) (title : String) (location : ProgressLocation)
  /-- End a progress indicator. -/
  | endProgress (id : Nat)
  /-- Read the documents of a scheme from the client. -/
  | registerContentProvider (scheme : String)
  /-- Set what a word is in a language. -/
  | setLanguageConfiguration (language wordPattern : String)
  deriving DecidableEq, Repr

end LanguageClient
