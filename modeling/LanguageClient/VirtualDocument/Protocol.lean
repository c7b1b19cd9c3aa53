import LanguageClient.Json.Record
import LanguageClient.Uri.Parse

/-!
# Messages about virtual documents

A virtual document is what the server makes of a source file; it is read-only and has a uri of its
own scheme.

* `OpenWebsite.url?` — the address that the server wants opened.
* `VirtualFileUpdate.ofJson?` — the parameters that bring a virtual file, in one of three forms.
* `VirtualFileInfo.ofJson?` — the server's answer about the virtual file of a source.
* `virtualUriFor` — the uri of the virtual file of a source.
-/

namespace LanguageClient

open Json (Field fields? required? optional? defaulted?)

/-- The scheme of virtual documents. -/
def virtualScheme : String := "vls-virtual"

/-- The uri of a virtual file that comes without one. -/
def defaultVirtualUri : String := "vls-virtual:/Virtual File"

/-- The fragment that selects the source map of a virtual document. -/
def sourceMapFragment : String := "sourcemap"

namespace Method

/-- The server wants an address opened. -/
def openWebsite : String := "$/openWebsite"

/-- The server brings a virtual file. -/
def showVirtualFile : String := "$/showVirtualFile"

/-- The client asks for the virtual file of a source. -/
def queryVirtualFileInfo : String := "$/queryVirtualFileInfo"

/-- The client asks for a report on a source. -/
def doctor : String := "$/doctor"

/-- The server logs a message. -/
def logMessage : String := "window/logMessage"

/-- The server shows a message. -/
def showMessage : String := "window/showMessage"

end Method

/-! ### Opening an address -/

/-- The parameters of a request to open an address: a text, or an array of texts of which the first
counts. The inner value is none when the array is empty. -/
def OpenWebsite.url? (params : Json) : Option (Option String) :=
  match params.asString? with
  | some url => some (some url)
  | none => params.asStrings?.map List.head?

/-! ### Bringing a virtual file -/

/-- A virtual file as the server brings it. -/
structure VirtualFileUpdate where
  /-- Its uri, if it has one of its own. -/
  uri? : Option String
  /-- What the document shows. -/
  content : String
  /-- How it maps back to the source. -/
  sourceMap : String
  deriving DecidableEq, Repr

namespace VirtualFileUpdate

/-- The forms in which a virtual file is brought. -/
inductive Form where
  | named
  | positional
  | positionalWithUri
  deriving DecidableEq, Repr

/-- The name of a form. -/
def Form.name : Form → String
  | .named => "named"
  | .positional => "positional"
  | .positionalWithUri => "positional_with_uri"

/-- The fields of the named form. -/
def fields : List Field :=
  [⟨"uri", .defaulted⟩, ⟨"virtualFileSource", .required⟩, ⟨"prettySourceMap", .defaulted⟩]

/-- The named form, which may also be written as an array of its fields. -/
def ofRecord? (params : Json) : Option VirtualFileUpdate :=
  match fields? fields params with
  | some [uri, content, sourceMap] => do
      let uri ← optional? Json.asString? uri
      let content ← required? Json.asString? content
      let sourceMap ← defaulted? "" Json.asString? sourceMap
      some ⟨uri, content, sourceMap⟩
  | _ => none

/-- The file that some parameters bring, and their form. The positional forms, content and source
map with or without a uri after them, come first. -/
def read? (params : Json) : Option (Form × VirtualFileUpdate) :=
  match params with
  | .arr [.str content, .str sourceMap, .str uri] =>
      some (.positionalWithUri, ⟨some uri, content, sourceMap⟩)
  | .arr [.str content, .str sourceMap] => some (.positional, ⟨none, content, sourceMap⟩)
  | params => (ofRecord? params).map (.named, ·)

/-- The file that some parameters bring. -/
def ofJson? (params : Json) : Option VirtualFileUpdate := (read? params).map Prod.snd

/-- The uri under which the file is kept. -/
def uri (update : VirtualFileUpdate) : String := update.uri?.getD defaultVirtualUri

end VirtualFileUpdate

/-! ### Asking for the virtual file of a source -/

/-- The answer about the virtual file of a source; the content comes with it or had been brought
before. -/
structure VirtualFileInfo where
  uri? : Option String
  content? : Option String
  sourceMap? : Option String
  deriving DecidableEq, Repr

namespace VirtualFileInfo

/-- The fields of an answer. -/
def fields : List Field :=
  [⟨"uri", .defaulted⟩, ⟨"virtualFileSource", .defaulted⟩, ⟨"prettySourceMap", .defaulted⟩]

/-- The answer that a value writes. -/
def ofRecord? (value : Json) : Option VirtualFileInfo :=
  match fields? fields value with
  | some [uri, content, sourceMap] => do
      let uri ← optional? Json.asString? uri
      let content ← optional? Json.asString? content
      let sourceMap ← optional? Json.asString? sourceMap
      some ⟨uri, content, sourceMap⟩
  | _ => none

/-- The answer that a value writes, where null means that the source has no virtual file. -/
def ofJson? (value : Json) : Option (Option VirtualFileInfo) :=
  optional? ofRecord? (some value)

/-- An answer with all its fields, in order. -/
def toJson (info : VirtualFileInfo) : Json :=
  .obj [("uri", .ofText? info.uri?), ("virtualFileSource", .ofText? info.content?),
    ("prettySourceMap", .ofText? info.sourceMap?)]

end VirtualFileInfo

/-- The parameters of a question for the virtual file of a source. -/
def queryParams (sourceUri : String) : Json := .obj [("sourceUri", .str sourceUri)]

/-- The parameters of a request for a report on a file. -/
def doctorParams (fileName : String) : Json := .obj [("fileName", .str fileName)]

/-- The uri of the virtual file of a source: the virtual scheme before the path of the source, or
before the whole text when that is no absolute uri. -/
def virtualUriFor (sourceUri : String) : String :=
  virtualScheme ++ ":" ++ (Uri.path? sourceUri).getD sourceUri

end LanguageClient
