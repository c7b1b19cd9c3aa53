import LanguageClient.Proofs.Session.Reactions
import LanguageClient.Proofs.Text.Split
import LanguageClient.Proofs.Uri.Path

/-!
# What the host is provided with

Virtual files are kept by their uris as they are, but a document is looked up by what stands before
the fragment of the uri that is asked for.  Both agree on every uri without a fragment: for those the
host is provided with the latest update, and with its source map by the fragment for it.  A file that
is kept under a uri with a fragment is never found.  The uri that is derived from a source has no
fragment unless the source is no absolute uri and holds the sign of one.

* `VirtualStore.latest?` — the latest of some updates for a uri.
* `VirtualStore.Provides` — what the host is provided with after some updates.
* `VirtualStore.provides_of_eq` — so it is after every sequence of updates.
* `mem_virtualUriFor_iff` — which derived uris have a fragment.
* `Client.store_of_shown`, `Client.outcome_of_shown` — a call that shows a virtual file keeps it
  first.
* **`Client.latest_updates_are_provided`** — for every run of a client that is activated first.
-/

namespace LanguageClient

/-! ### The store and its readers -/

namespace VirtualStore

variable {store : VirtualStore} {uri fragment : String}

/-- A uri without a fragment asks for the content of its file. -/
theorem provide_whole (h : '#' ∉ uri.toList) :
    store.provide uri = (store.get? uri).elim "" VirtualFile.content := by
  unfold provide
  rw [Text.splitOnFirst_eq_none_iff.mpr h, Option.getD_none]
  dsimp only
  cases store.get? uri with
  | none => rfl
  | some file => exact if_neg (by decide)

/-- A fragment asks for the source map of the file of what stands before it, or for its content. -/
theorem provide_fragment (h : '#' ∉ uri.toList) (fragment : String) :
    store.provide (uri ++ "#" ++ fragment) = (store.get? uri).elim "" fun file =>
      if fragment = sourceMapFragment then file.sourceMap else file.content := by
  have hsplit : Text.splitOnFirst (· = '#') (uri ++ "#" ++ fragment) = some (uri, fragment) :=
    Text.splitOnFirst_eq_some_iff.mpr ⟨rfl, h⟩
  unfold provide
  rw [hsplit, Option.getD_some]
  dsimp only
  cases store.get? uri <;> rfl

/-- Whatever is asked for, the file is looked up by a uri without a fragment. -/
theorem provide_congr {other : VirtualStore}
    (h : ∀ uri : String, '#' ∉ uri.toList → store.get? uri = other.get? uri) (uri : String) :
    store.provide uri = other.provide uri := by
  cases hsplit : Text.splitOnFirst (· = '#') uri with
  | none =>
      have hwhole := Text.splitOnFirst_eq_none_iff.mp hsplit
      rw [provide_whole hwhole, provide_whole hwhole, h uri hwhole]
  | some parts =>
      obtain ⟨rfl, hbase⟩ := Text.splitOnFirst_eq_some_iff.mp hsplit
      change store.provide (parts.1 ++ "#" ++ parts.2) = other.provide (parts.1 ++ "#" ++ parts.2)
      rw [provide_fragment hbase, provide_fragment hbase, h parts.1 hbase]

/-- The latest of some updates for a uri. -/
def latest? (files : List VirtualFile) (uri : String) : Option VirtualFile :=
  (files.filter fun file => file.uri = uri).getLast?

/-- Updates under uris with a fragment are not among those of a uri without one. -/
theorem latest?_filter (files : List VirtualFile) (h : '#' ∉ uri.toList) :
    latest? (files.filter fun file => '#' ∉ file.uri.toList) uri = latest? files uri := by
  unfold latest?
  rw [List.filter_filter]
  congr 1
  refine List.filter_congr fun file _ => ?_
  by_cases huri : file.uri = uri
  · simp [huri, h]
  · simp [huri]

/-- What the host is provided with after some updates. -/
structure Provides (store : VirtualStore) (files : List VirtualFile) : Prop where
  /-- A uri without a fragment yields the content of the latest update for it. -/
  content : ∀ uri : String, '#' ∉ uri.toList →
    store.provide uri = (latest? files uri).elim "" VirtualFile.content
  /-- With the fragment for it, the same uri yields the source map of that update. -/
  sourceMap : ∀ uri : String, '#' ∉ uri.toList →
    store.provide (uri ++ "#" ++ sourceMapFragment) =
      (latest? files uri).elim "" VirtualFile.sourceMap
  /-- With any other fragment it yields the content. -/
  fragment : ∀ uri fragment : String, '#' ∉ uri.toList → fragment ≠ sourceMapFragment →
    store.provide (uri ++ "#" ++ fragment) = (latest? files uri).elim "" VirtualFile.content
  /-- Updates under uris with a fragment change nothing that the host is provided with. -/
  hidden : ∀ uri : String, store.provide uri =
    ((files.filter fun file => '#' ∉ file.uri.toList).foldl keep {}).provide uri

/-- For every uri the store has the file of the latest update. -/
theorem get?_foldl_keep_empty (files : List VirtualFile) (uri : String) :
    (files.foldl keep {}).get? uri = latest? files uri :=
  (get?_foldl_keep {} files uri).trans Option.or_none

/-- So it is after every sequence of updates. -/
theorem provides_of_eq {files : List VirtualFile} (h : store = files.foldl keep {}) :
    store.Provides files := by
  subst h
  have hget := get?_foldl_keep_empty files
  refine ⟨?_, ?_, ?_, ?_⟩
  · intro uri h
    rw [provide_whole h, hget]
  · intro uri h
    rw [provide_fragment h, hget]
    simp
  · intro uri fragment h hother
    rw [provide_fragment h, hget]
    simp [hother]
  · refine provide_congr fun uri h => ?_
    rw [hget, get?_foldl_keep_empty, latest?_filter files h]

end VirtualStore

/-! ### Derived uris -/

/-- A uri that is derived from a source has a fragment only if the source is no absolute uri. -/
theorem mem_virtualUriFor_iff {source : String} :
    '#' ∈ (virtualUriFor source).toList ↔ Uri.path? source = none ∧ '#' ∈ source.toList := by
  have hscheme : '#' ∉ (virtualScheme ++ ":").toList := by decide
  rw [virtualUriFor, String.toList_append, List.mem_append, or_iff_right hscheme]
  cases hpath : Uri.path? source with
  | none => simp
  | some path => simp [Uri.not_mem_path hpath]

/-! ### Calls that show a virtual file -/

namespace Client

variable {c : Client} {k : Nat} {file : VirtualFile}

/-- The file of a reply that a call shows is kept. -/
theorem store_of_shown (h : c.shown? k = some file) :
    (c.step (.poll k)).workspace.store = c.workspace.store.keep file := by
  have hpoll := (serves_poll c k).trans (serviceMoves_tidy (c.poll k))
  rw [h] at hpoll
  exact Service.store_moves hpoll

theorem calls_settle? {c' : Client} {g id : Nat} {outcome : Except SessionError Json}
    (h : c.settle? g id = some (c', outcome)) : c'.calls = c.calls := by
  obtain ⟨_, after, -, -, rfl⟩ := settle?_eq_some_iff.mp h
  unfold updateConnection updateAttempt
  split <;> rfl

/-- A reply with a virtual file is shown under the uri of that file. -/
theorem showFile_of_file {source : String} {value : Json}
    (h : VirtualFileInfo.file? source value = some file) :
    (c.showFile source (.ok value)).2 = .ok (some file.uri) ∧
      (c.showFile source (.ok value)).1.calls = c.calls := by
  unfold VirtualFileInfo.file? at h
  split at h
  · rename_i info hinfo
    obtain ⟨content, hcontent, rfl⟩ := Option.map_eq_some_iff.mp h
    simp [showFile, hinfo, hcontent, say, note, setFile]
  · cases h

/-- The caller is told the uri under which the file is kept. -/
theorem outcome_of_shown {source : String} (h : c.shown? k = some file)
    (hoperation : c.operation? k = some (.showVirtualFile source)) :
    (c.step (.poll k)).outcome? k = some (.shown (some file.uri)) := by
  obtain ⟨operation, g, id, source', c', value, hcall, hsettle, hfile⟩ := awaits_of_shown h
  obtain ⟨hshown, hcalls⟩ := showFile_of_file (c := c') hfile
  have hsame : (c'.showFile source' (.ok value)).1.operation? k = some (.showVirtualFile source) := by
    rw [operation?, hcalls, calls_settle? hsettle]
    exact hoperation
  have hpoll : c.poll k = (c'.showFile source' (.ok value)).1.finish k (.shown (some file.uri)) := by
    simp [poll, hcall, canGoOn, hsettle, goOn, afterReply, useReply, concludeShow, hsame, hshown]
  have htidy : (c.step (.poll k)).calls = (c.poll k).calls := by
    unfold step tidy act
    dsimp only
    split <;> rfl
  rw [outcome?, htidy, hpoll, finish, setPhase, hcalls, calls_settle? hsettle]
  simp [hcall]

/-! ### Runs -/

/-- What the host is provided with in a run. -/
structure ProvidesLatest (c : Client) (events : List Event) : Prop where
  /-- The latest updates, by notifications and by replies. -/
  provides : (c.run events).workspace.store.Provides (c.updates events)
  /-- When a call shows the virtual file that a reply has brought, the file is kept and its caller is
  told the uri; under a uri without a fragment the host is provided with the file right
  afterwards. -/
  shown : ∀ (before after : List Event) (k : Nat) (file : VirtualFile),
    events = before ++ .poll k :: after → (c.run before).shown? k = some file →
      let next := c.run (before ++ [.poll k])
      next.workspace.store.get? file.uri = some file ∧
        ('#' ∉ file.uri.toList → next.workspace.store.provide file.uri = file.content ∧
          next.workspace.store.provide (file.uri ++ "#" ++ sourceMapFragment) = file.sourceMap) ∧
        ∀ source : String, (c.run before).operation? k = some (.showVirtualFile source) →
          next.outcome? k = some (.shown (some file.uri))

/-- **The latest updates are provided under uris without a fragment.**  After every sequence of
updates, and so after every run of a client that is activated first, such a uri yields the content of
the latest update for it, and its source map by the fragment for that; updates under other uris change
nothing.  A derived uri has a fragment only when the source is no absolute uri. -/
theorem latest_updates_are_provided (options : SessionOptions) (processId : Nat)
    (workspace : Workspace) (rest : List Event) :
    (∀ files : List VirtualFile,
        (files.foldl VirtualStore.keep {} : VirtualStore).Provides files) ∧
      (Client.new options processId { workspace with router := {}, store := {} }).ProvidesLatest
        ([.invoke .activate, .poll 0] ++ rest) ∧
      ∀ source : String, '#' ∈ (virtualUriFor source).toList ↔
        Uri.path? source = none ∧ '#' ∈ source.toList := by
  refine ⟨fun _ => VirtualStore.provides_of_eq rfl, ⟨?_, ?_⟩, fun source => mem_virtualUriFor_iff⟩
  · have hfinds : ∀ before after, [.invoke .activate, .poll 0] ++ rest = before ++ after →
        ((Client.new options processId { workspace with router := {}, store := {} }).run
          before).service.FindsHandlers :=
      fun before after h => findsHandlers_of_activated rfl ⟨nofun, nofun⟩ rfl rfl h
    exact VirtualStore.provides_of_eq (reacts_run hfinds).2.2
  · intro before after k file _ hshown next
    have hnext : next = ((Client.new options processId
        { workspace with router := {}, store := {} }).run before).step (.poll k) := by
      simp [next, run]
    have hfile : next.workspace.store.get? file.uri = some file := by
      rw [hnext, store_of_shown hshown, VirtualStore.get?_keep, if_pos rfl]
    refine ⟨hfile, fun hwhole => ⟨?_, ?_⟩, fun source hoperation => ?_⟩
    · rw [VirtualStore.provide_whole hwhole, hfile]
      rfl
    · rw [VirtualStore.provide_fragment hwhole, hfile]
      simp
    · rw [hnext]
      exact outcome_of_shown hshown hoperation

/-- A source that is no absolute uri and holds the sign of a fragment: the file of the reply is kept
and shown, and the host is provided with nothing. -/
theorem shown_file_that_is_not_provided :
    let source := "not a uri#x"
    let handshake : Json :=
      .obj [("id", .ofNat 1), ("result", .obj [("capabilities", .obj [])])]
    let reply : Json := .obj [("id", .ofNat 2), ("result", .obj [
      ("virtualFileSource", .str "compiled"), ("prettySourceMap", .str "map")])]
    let events : List Event := [.invoke .activate, .poll 0, .launchSucceeded 1 false false, .poll 0,
      .connection 1 .start, .connection 1 .write, .connection 1 .finish,
      .connection 1 (.receive (Frame.encode handshake)), .connection 1 .read, .connection 1 .handle,
      .poll 0, .invoke (.showVirtualFile source), .poll 1,
      .connection 1 .start, .connection 1 .write, .connection 1 .finish,
      .connection 1 .start, .connection 1 .write, .connection 1 .finish,
      .connection 1 (.receive (Frame.encode reply)), .connection 1 .read, .connection 1 .handle,
      .poll 1]
    let c := (Client.new {} 0 {}).run events
    let uri := "vls-virtual:not a uri#x"
    (c.outcome? 1).bind (fun | .shown uri? => uri? | _ => none) = some uri ∧
      c.workspace.store.get? uri = some ⟨uri, "compiled", "map"⟩ ∧
      c.workspace.store.provide uri = "" ∧
      c.workspace.store.provide (uri ++ "#" ++ sourceMapFragment) = "" := by
  decide +kernel

end Client
end LanguageClient
