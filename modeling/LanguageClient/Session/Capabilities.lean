import LanguageClient.Json.Shape

/-!
# What a server says about itself

The result of the initialization describes what the server can do. The client keeps nothing of it,
but accepts it only in the shapes that the language server protocol lays down.

* `Capabilities.shape` — the shape of the description.
* `InitializeResult.isAccepted` — whether a result is one.
-/

namespace LanguageClient

namespace Capabilities

open Shape

/-- A field that may be missing. -/
def maybe (name : String) (shape : Shape) : String × Bool × Shape := (name, false, shape)

/-- A field that has to be there. -/
def needed (name : String) (shape : Shape) : String × Bool × Shape := (name, true, shape)

/-- A record with the option to report progress. -/
def withProgress (fields : List (String × Bool × Shape)) : Shape :=
  record true (maybe "workDoneProgress" boolean :: fields)

/-- An array of texts. -/
def texts : Shape := list string

/-- The fields by which a capability is bound to documents. -/
def registration : List (String × Bool × Shape) :=
  [maybe "documentSelector"
      (list (record false
        [maybe "language" string, maybe "scheme" string, maybe "pattern" string])),
    maybe "id" string]

/-- Yes, no, or options with some fields. -/
def switchOr (fields : List (String × Bool × Shape)) : Shape :=
  either [boolean, withProgress fields]

/-- Yes, no, or options that may be bound to documents. -/
def switchOrRegistered (fields : List (String × Bool × Shape)) : Shape :=
  either [boolean, withProgress (fields ++ registration), withProgress fields]

/-- How documents are kept in step. -/
def textDocumentSync : Shape :=
  either [integer, record false
    [maybe "openClose" boolean, maybe "change" integer, maybe "willSave" boolean,
      maybe "willSaveWaitUntil" boolean,
      maybe "save" (either [boolean, record false [maybe "includeText" boolean]])]]

/-- Which files an operation is reported for. -/
def fileOperation : Shape :=
  record false [needed "filters" (list (record false
    [maybe "scheme" string,
      needed "pattern" (record false
        [needed "glob" string, maybe "matches" (oneOf ["file", "folder"]),
          maybe "options" (record false [maybe "ignoreCase" boolean])])]))]

/-- What the server does with the workspace. -/
def workspace : Shape :=
  record false
    [maybe "workspaceFolders" (record false
        [maybe "supported" boolean, maybe "changeNotifications" (either [boolean, string])]),
      maybe "fileOperations" (record false
        (["didCreate", "willCreate", "didRename", "willRename", "didDelete", "willDelete"].map
          fun name => maybe name fileOperation))]

/-- The fields of semantic tokens. -/
def semanticTokens : List (String × Bool × Shape) :=
  [needed "legend" (record false [needed "tokenTypes" texts, needed "tokenModifiers" texts]),
    maybe "range" boolean,
    maybe "full" (either [boolean, record false [maybe "delta" boolean]])]

/-- The fields of diagnostics. -/
def diagnostics : List (String × Bool × Shape) :=
  [maybe "identifier" string, needed "interFileDependencies" boolean,
    needed "workspaceDiagnostics" boolean]

/-- The shape of a description of capabilities. -/
def shape : Shape :=
  record false
    [maybe "positionEncoding" string,
      maybe "textDocumentSync" textDocumentSync,
      maybe "selectionRangeProvider" (switchOrRegistered []),
      maybe "hoverProvider" (switchOr []),
      maybe "completionProvider" (withProgress
        [maybe "resolveProvider" boolean, maybe "triggerCharacters" texts,
          maybe "allCommitCharacters" texts,
          maybe "completionItem" (record false [maybe "labelDetailsSupport" boolean])]),
      maybe "signatureHelpProvider" (withProgress
        [maybe "triggerCharacters" texts, maybe "retriggerCharacters" texts]),
      maybe "definitionProvider" (switchOr []),
      maybe "typeDefinitionProvider" (switchOrRegistered []),
      maybe "implementationProvider" (switchOrRegistered []),
      maybe "referencesProvider" (switchOr []),
      maybe "documentHighlightProvider" (switchOr []),
      maybe "documentSymbolProvider" (switchOr [maybe "label" string]),
      maybe "workspaceSymbolProvider" (switchOr [maybe "resolveProvider" boolean]),
      maybe "codeActionProvider" (switchOr
        [maybe "codeActionKinds" texts, maybe "resolveProvider" boolean]),
      maybe "codeLensProvider" (record false [maybe "resolveProvider" boolean]),
      maybe "documentFormattingProvider" (switchOr []),
      maybe "documentRangeFormattingProvider" (switchOr []),
      maybe "documentOnTypeFormattingProvider" (record false
        [needed "firstTriggerCharacter" string, maybe "moreTriggerCharacter" texts]),
      maybe "renameProvider" (switchOr [maybe "prepareProvider" boolean]),
      maybe "documentLinkProvider" (withProgress [maybe "resolveProvider" boolean]),
      maybe "colorProvider" (switchOrRegistered []),
      maybe "foldingRangeProvider" (switchOrRegistered []),
      maybe "declarationProvider" (switchOrRegistered []),
      maybe "executeCommandProvider" (withProgress [needed "commands" texts]),
      maybe "workspace" workspace,
      maybe "callHierarchyProvider" (switchOr []),
      maybe "semanticTokensProvider" (either
        [withProgress semanticTokens, withProgress (semanticTokens ++ registration)]),
      maybe "monikerProvider" (switchOrRegistered []),
      maybe "linkedEditingRangeProvider" (switchOrRegistered []),
      maybe "inlineValueProvider" (switchOrRegistered []),
      maybe "inlayHintProvider" (switchOrRegistered [maybe "resolveProvider" boolean]),
      maybe "diagnosticProvider" (either
        [withProgress diagnostics, withProgress (diagnostics ++ registration)]),
      maybe "experimental" any]

end Capabilities

namespace InitializeResult

open Capabilities Shape

/-- The shape of the result of an initialization. -/
def shape : Shape :=
  record false
    [needed "capabilities" Capabilities.shape,
      maybe "serverInfo" (record false [needed "name" string, maybe "version" string])]

/-- Whether a value is the result of an initialization. -/
def isAccepted (value : Json) : Bool := shape.fits value

end InitializeResult

end LanguageClient
