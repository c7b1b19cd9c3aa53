import LanguageClient.Text.Blank
import LanguageClient.VirtualDocument.Protocol

/-!
# The store of virtual files

Every file is replaced as a whole, and every update is announced by its uri. Whoever subscribed
receives the announcements in order; of those not yet received only the newest are kept.

* `VirtualFile`, `VirtualStore` — the files by uri, and the history of announcements.
* `VirtualStore.set`, `VirtualStore.get?` — replace and read.
* `Subscription`, `VirtualStore.drain` — what a subscriber receives.
* `VirtualStore.provide` — the text of a virtual document for the host.
-/

namespace LanguageClient

/-- A virtual file. -/
structure VirtualFile where
  uri : String
  content : String
  sourceMap : String
  deriving DecidableEq, Repr

/-- The files of a session, and the uris of all updates in order. -/
structure VirtualStore where
  /-- The files, one for each uri, in the order of their first update. -/
  files : List VirtualFile := []
  /-- The uri of every update, the oldest first. -/
  updates : Array String := #[]

namespace VirtualStore

/-- Puts a file in the place of the one with its uri, or at the end. -/
def replaceIn (file : VirtualFile) : List VirtualFile → List VirtualFile
  | [] => [file]
  | other :: rest => if other.uri = file.uri then file :: rest else other :: replaceIn file rest

/-- Replaces the file of a uri and announces the update. -/
def set (store : VirtualStore) (uri content sourceMap : String) : VirtualStore where
  files := replaceIn ⟨uri, content, sourceMap⟩ store.files
  updates := store.updates.push uri

/-- The file of a uri. -/
def get? (store : VirtualStore) (uri : String) : Option VirtualFile :=
  store.files.find? fun file => file.uri = uri

/-- The number of files. -/
def size (store : VirtualStore) : Nat := store.files.length

/-- The document of a uri: the content, or the source map when the uri ends with that fragment;
empty when there is no such file. -/
def provide (store : VirtualStore) (uri : String) : String :=
  let (base, fragment) := (Text.splitOnFirst (· = '#') uri).getD (uri, "")
  match store.get? base with
  | none => ""
  | some file => if fragment = sourceMapFragment then file.sourceMap else file.content

end VirtualStore

/-- The position of a subscriber: how many updates it has received or was told to have missed. -/
structure Subscription where
  position : Nat

namespace VirtualStore

/-- How many updates are kept for a subscriber. -/
def announcementLimit : Nat := 64

/-- A subscription to every later update. -/
def subscribe (store : VirtualStore) : Subscription := ⟨store.updates.size⟩

/-- What a subscriber receives: the number of updates it missed, the kept ones in order, and its new
position. -/
def drain (store : VirtualStore) (subscription : Subscription) :
    Nat × List String × Subscription :=
  let unread := (store.updates.extract subscription.position store.updates.size).toList
  let missed := unread.length - announcementLimit
  (missed, unread.drop missed, store.subscribe)

end VirtualStore

end LanguageClient
