import LanguageClient.Host
import LanguageClient.VirtualDocument.Store

/-!
# The terminal as a host

* `ConsoleCommand.ofLine?` — the language of input lines.
* `Console` — the text written so far, the content providers, and the active document.
* `Console.perform` — what a host call does.
* `Console.readDocument?`, `Console.cat` — the document of a uri, by the provider of its scheme.
-/

namespace LanguageClient

/-- What an input line asks for. -/
inductive ConsoleCommand where
  /-- Leave. -/
  | quit
  /-- Print the document of a uri. -/
  | cat (uri : String)
  /-- Make a document the active one. -/
  | openDocument (uri : String)
  /-- Run a command. -/
  | run (id : String) (args : List Json)

namespace ConsoleCommand

/-- The command of an input line; none for a blank line. The first word decides, the rest of the
line is its argument. -/
def ofLine? (line : String) : Option ConsoleCommand :=
  let line := Text.trim line
  if line.isEmpty then none
  else
    let (head, rest) := match Text.splitOnFirst Text.isBlank line with
      | some (head, rest) => (head, Text.trim rest)
      | none => (line, "")
    some <|
      if head = ":quit" ∨ head = ":q" then quit
      else if head = ":cat" then cat rest
      else if head = ":open" then openDocument rest
      else run head (if rest.isEmpty then [] else [.str rest])

end ConsoleCommand

/-- Where the documents of a scheme come from. -/
inductive ContentProvider where
  /-- The virtual files. -/
  | virtualFiles
  /-- The same text for every uri, which is repeated after it. -/
  | fixed (text : String)

namespace ContentProvider

/-- The document of a uri. -/
def provide (store : VirtualStore) (uri : String) : ContentProvider → String
  | virtualFiles => store.provide uri
  | fixed text => text ++ "<" ++ uri ++ ">"

end ContentProvider

/-- A terminal. -/
structure Console where
  /-- The text written so far. -/
  output : String := ""
  /-- The content providers by scheme, the newest first. -/
  providers : List (String × ContentProvider) := []
  /-- The uri of the active document. -/
  active : Option String := none

namespace Console

/-- Writes a text and a line break. -/
def print (console : Console) (text : String) : Console :=
  { console with output := console.output ++ text ++ "\n" }

/-- Makes a provider the one of its scheme. -/
def register (console : Console) (scheme : String) (provider : ContentProvider) : Console :=
  { console with providers := (scheme, provider) :: console.providers }

/-- The document of a uri; none when its scheme has no provider. -/
def readDocument? (console : Console) (store : VirtualStore) (uri : String) : Option String :=
  match Text.splitOnFirst (· = ':') uri with
  | none => none
  | some (scheme, _) => (console.providers.lookup scheme).map (ContentProvider.provide store uri)

/-- The text that a host call writes; none when it writes nothing. -/
def line? (console : Console) (store : VirtualStore) : HostCall → Option String
  | .openExternal url => some ("open " ++ url)
  | .openFolder path => some ("open folder " ++ path)
  | .showDocument uri => some <| match console.readDocument? store uri with
      | some content => "--- " ++ uri ++ "\n" ++ content
      | none => "show " ++ uri
  | .showUntitled content language => some ("--- untitled (" ++ language ++ ")\n" ++ content)
  | .showInformation message => some ("info: " ++ message)
  | .appendOutput line => some ("[output] " ++ line)
  | .beginProgress _ title _ => some (title ++ "...")
  | .showOutput => none
  | .endProgress _ => none
  | .registerContentProvider _ => none
  | .setLanguageConfiguration _ _ => none

/-- Writes the document of a uri. -/
def cat (console : Console) (store : VirtualStore) (uri : String) : Console :=
  console.print ((console.readDocument? store uri).getD ("no provider for " ++ uri))

/-- What a host call does: it writes its text, and a registration takes effect. -/
def perform (console : Console) (store : VirtualStore) (call : HostCall) : Console :=
  let written := match console.line? store call with
    | some text => console.print text
    | none => console
  match call with
  | .registerContentProvider scheme => written.register scheme .virtualFiles
  | _ => written

end Console

end LanguageClient
