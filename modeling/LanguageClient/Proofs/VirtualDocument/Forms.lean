import LanguageClient.Proofs.Json.Records
import LanguageClient.Proofs.VirtualDocument.Ways

/-!
# The forms in which a virtual file is brought

A server brings a virtual file as an object, or as an array of its content, its source map and, if it
has one of its own, its uri.  The object is read as a record, and so an array of the fields of that
record is read as well, where the uri comes first: when the first item of an array is null, the next
ones are the content and the source map.

* `VirtualFileUpdate.Writes`, `VirtualFileUpdate.WritesNull` — the parameters that bring a file, and
  the arrays among them that no form provides for.
* **`VirtualFileUpdate.file?_iff`** — these parameters are read, with these roles, and no others.
* `Client.step_brings` — what is seen of the delivery of such parameters.
* **`Client.files_are_brought_in_forms`** — for every run of a client that is activated first.
-/

namespace LanguageClient

open Json (lookup optional? defaulted? required?)

/-! ### Parameters -/

namespace VirtualFileUpdate

variable {params : Json}

/-- The file that an update brings, under its own uri or under the one of files without any. -/
def file (update : VirtualFileUpdate) : VirtualFile :=
  ⟨update.uri, update.content, update.sourceMap⟩

/-- The file that some parameters bring. -/
def file? (params : Json) : Option VirtualFile := (ofJson? params).map file

/-- The parameters that write a file. -/
inductive Writes : Json → VirtualFile → Prop
  /-- Content and source map. -/
  | positional (content sourceMap : String) :
      Writes (.arr [.str content, .str sourceMap]) ⟨defaultVirtualUri, content, sourceMap⟩
  /-- Content and source map, and the uri after them. -/
  | positionalWithUri (content sourceMap uri : String) :
      Writes (.arr [.str content, .str sourceMap, .str uri]) ⟨uri, content, sourceMap⟩
  /-- An object, in which the source map may be missing and the uri may be missing or null. -/
  | named (members : List (String × Json)) (content : String) (uri? sourceMap? : Option String)
      (huri : Json.TellsText (lookup "uri" members) uri?)
      (hcontent : lookup "virtualFileSource" members = some (.str content))
      (hsourceMap : lookup "prettySourceMap" members = sourceMap?.map .str) :
      Writes (.obj members) ⟨uri?.getD defaultVirtualUri, content, sourceMap?.getD ""⟩

/-- The arrays that write a file behind a null: the content, and the source map if there is one. -/
inductive WritesNull : Json → VirtualFile → Prop
  | content (content : String) :
      WritesNull (.arr [.null, .str content]) ⟨defaultVirtualUri, content, ""⟩
  | sourceMap (content sourceMap : String) :
      WritesNull (.arr [.null, .str content, .str sourceMap]) ⟨defaultVirtualUri, content, sourceMap⟩

/-- A file that is written behind a null has no uri of its own. -/
theorem WritesNull.uri_eq {file : VirtualFile} (h : WritesNull params file) :
    file.uri = defaultVirtualUri := by
  cases h <;> rfl

/-- An array that begins with null writes no file in any form. -/
theorem WritesNull.not_writes {file : VirtualFile} (h : WritesNull params file)
    (other : VirtualFile) : ¬ Writes params other := by
  cases h <;> nofun

theorem ofRecord?_eq_some_iff {update : VirtualFileUpdate} :
    ofRecord? params = some update ↔ params.MayWrite 3 ∧
      Json.TellsText (params.field? "uri" 0) update.uri? ∧
      params.field? "virtualFileSource" 1 = some (.str update.content) ∧
      defaulted? "" Json.asString? (params.field? "prettySourceMap" 2) = some update.sourceMap := by
  have hneeded : params.field? "virtualFileSource" 1 = some (.str update.content) ↔
      required? Json.asString? (params.field? "virtualFileSource" 1) = some update.content := by
    rw [Json.required?_eq_bind]
    cases params.field? "virtualFileSource" 1 <;> simp [Json.asString?_eq_some_iff]
  rw [hneeded, ← Json.optional?_asString?_iff]
  obtain ⟨uri, content, sourceMap⟩ := update
  exact Json.readThree_iff VirtualFileUpdate.mk (optional? Json.asString?) (required? Json.asString?)
    (defaulted? "" Json.asString?) VirtualFileUpdate.mk.inj (by decide) (by nofun) (fun _ => rfl)
    (by nofun)

theorem defaulted?_asString?_iff {given : Option Json} {sourceMap : String} :
    defaulted? "" Json.asString? given = some sourceMap ↔
      ∃ sourceMap? : Option String, given = sourceMap?.map .str ∧ sourceMap = sourceMap?.getD "" := by
  cases given with
  | none =>
      simp only [defaulted?, Option.some.injEq]
      constructor
      · rintro rfl
        exact ⟨none, rfl, rfl⟩
      · rintro ⟨sourceMap?, hnone, rfl⟩
        cases sourceMap? with
        | none => rfl
        | some s => cases hnone
  | some value =>
      simp only [defaulted?, Json.asString?_eq_some_iff]
      constructor
      · rintro rfl
        exact ⟨some sourceMap, rfl, rfl⟩
      · rintro ⟨sourceMap?, hsome, rfl⟩
        cases sourceMap? with
        | none => cases hsome
        | some s => exact Option.some.inj hsome

/-- An array of at most three items that is read as a record and holds something else than texts
begins with null. -/
theorem writesNull_of_items {items : List Json} {update : VirtualFileUpdate}
    (h : ofRecord? (.arr items) = some update)
    (htwo : ∀ content sourceMap, items ≠ [.str content, .str sourceMap])
    (hthree : ∀ content sourceMap uri, items ≠ [.str content, .str sourceMap, .str uri]) :
    WritesNull (.arr items) update.file := by
  obtain ⟨hmay, huri, hcontent, hsourceMap⟩ := ofRecord?_eq_some_iff.mp h
  obtain ⟨sourceMap?, hgiven, hread⟩ := defaulted?_asString?_iff.mp hsourceMap
  obtain ⟨uri?, content, sourceMap⟩ := update
  dsimp only at huri hcontent hread
  subst hread
  -- The second item is the content; a text before it would make the array one of the forms.
  match items, hmay with
  | [], _ => cases hcontent
  | [_], _ => cases hcontent
  | [first, second], _ =>
      obtain rfl : second = .str content := Option.some.inj hcontent
      obtain rfl : sourceMap? = none := by
        cases sourceMap? with
        | none => rfl
        | some s => cases hgiven
      change Json.TellsText (some first) uri? at huri
      cases huri with
      | null => exact .content content
      | text uri => exact absurd rfl (htwo uri content)
  | [first, second, third], _ =>
      obtain rfl : second = .str content := Option.some.inj hcontent
      obtain ⟨sourceMap, rfl, rfl⟩ : ∃ s, third = .str s ∧ sourceMap? = some s := by
        cases sourceMap? with
        | none => cases hgiven
        | some s => exact ⟨s, Option.some.inj hgiven, rfl⟩
      change Json.TellsText (some first) uri? at huri
      cases huri with
      | null => exact .sourceMap content sourceMap
      | text uri => exact absurd rfl (hthree uri content sourceMap)

theorem file?_of_writes {file : VirtualFile} (h : Writes params file) : file? params = some file := by
  cases h with
  | positional content sourceMap => rfl
  | positionalWithUri content sourceMap uri => rfl
  | named members content uri? sourceMap? huri hcontent hsourceMap =>
      have hread : ofRecord? (.obj members) = some ⟨uri?, content, sourceMap?.getD ""⟩ :=
        ofRecord?_eq_some_iff.mpr ⟨trivial, huri, hcontent,
          defaulted?_asString?_iff.mpr ⟨sourceMap?, hsourceMap, rfl⟩⟩
      rw [file?, ofJson?, read?, hread]
      · rfl
      · nofun
      · nofun

/-- **The parameters that bring a file**, and the file that they bring: those that write it, and
besides them the arrays that write it behind a null. -/
theorem file?_iff {file : VirtualFile} :
    file? params = some file ↔ Writes params file ∨ WritesNull params file := by
  constructor
  · intro h
    obtain ⟨update, hupdate, rfl⟩ := Option.map_eq_some_iff.mp h
    obtain ⟨⟨form, found⟩, hread, rfl⟩ := Option.map_eq_some_iff.mp hupdate
    unfold read? at hread
    split at hread
    · cases hread
      exact .inl (.positionalWithUri _ _ _)
    · cases hread
      exact .inl (.positional _ _)
    · rename_i hthree htwo
      obtain ⟨record, hrecord, heq⟩ := Option.map_eq_some_iff.mp hread
      cases heq
      cases params with
      | arr items =>
          refine .inr (writesNull_of_items hrecord ?_ ?_)
          · rintro content sourceMap rfl
            exact htwo _ _ rfl
          · rintro content sourceMap uri rfl
            exact hthree _ _ _ rfl
      | obj members =>
          obtain ⟨-, huri, hcontent, hsourceMap⟩ := ofRecord?_eq_some_iff.mp hrecord
          obtain ⟨sourceMap?, hgiven, hread⟩ := defaulted?_asString?_iff.mp hsourceMap
          have hfile : found.file = ⟨found.uri?.getD defaultVirtualUri, found.content,
              sourceMap?.getD ""⟩ := by
            rw [← hread]
            rfl
          rw [hfile]
          exact .inl (.named members found.content found.uri? sourceMap? huri hcontent hgiven)
      | _ => cases hrecord
  · rintro (h | h)
    · exact file?_of_writes h
    · cases h <;> rfl

end VirtualFileUpdate

/-! ### Deliveries -/

namespace Client

open VirtualFileUpdate (Writes WritesNull file? file?_iff)

variable {c : Client} {g : Nat} {message : Notification}

@[simp] theorem workspace_tidy (c : Client) : c.tidy.workspace = c.workspace := by
  rw [tidy_eq_sweep]
  unfold disown
  split <;> rfl

@[simp] theorem workspace_updateAttempt (c : Client) (g : Nat) (f : Attempt → Attempt) :
    (c.updateAttempt g f).workspace = c.workspace := by
  unfold updateAttempt
  split <;> rfl

@[simp] theorem journal_updateAttempt (c : Client) (g : Nat) (f : Attempt → Attempt) :
    (c.updateAttempt g f).journal = c.journal := by
  unfold updateAttempt
  split <;> rfl

/-- The handler of virtual files keeps the file that some parameters bring. -/
theorem handle_showVirtualFile (c : Client) (params : Json) :
    c.handle params .showVirtualFile = { c with workspace := { c.workspace with
      store := (file? params).elim c.workspace.store c.workspace.store.keep } } := by
  rw [handle, file?]
  cases VirtualFileUpdate.ofJson? params <;> rfl

/-- A notification that brings a virtual file is entered in the journal, and its handler keeps the
file; nothing else changes for the host. -/
theorem step_brings (hfinds : c.service.FindsHandlers) (hdelivery : c.delivery? g = some message)
    (hmethod : message.method = Method.showVirtualFile) :
    (c.step (.pump g)).journal = c.journal ++ [.delivered g message] ∧
      (c.step (.pump g)).workspace = { c.workspace with
        store := (file? message.params).elim c.workspace.store c.workspace.store.keep } := by
  obtain ⟨hopen, -⟩ := service_pump hdelivery
  have hbound : c.workspace.router.find? Method.showVirtualFile = some .showVirtualFile :=
    hfinds.binds hopen _ _ (by decide)
  obtain ⟨a, rest, -, -, -, hpump⟩ := pump_of_delivery? hdelivery
  let d := (c.updateConnection g fun connection => { connection with notifications := rest }).note
    (.delivered g message)
  have hworkspace : d.workspace = c.workspace := workspace_updateAttempt c g _
  have hjournal : d.journal = c.journal ++ [.delivered g message] := by
    rw [← journal_updateAttempt c g]
    rfl
  have hdeliver : d.deliver message = d.handle message.params .showVirtualFile := by
    rw [deliver, hworkspace, hmethod, hbound]
  rw [step, act, hpump, journal_tidy, workspace_tidy, hdeliver, handle_showVirtualFile, ← hworkspace]
  exact ⟨hjournal, rfl⟩

/-- **A virtual file is brought in one of these forms.**  Parameters bring a file when they write it
as an object or as an array of texts, or as an array that begins with null, and what they bring has
the roles that the form gives it; so only such an array brings what it does not write.  In every run
of a client that is activated first, a notification with such parameters puts that file in its place
when it is delivered, and with any other parameters it leaves the workspace as it was; nothing else is
seen of it. -/
theorem files_are_brought_in_forms (params : Json) :
    (∀ file, file? params = some file ↔ Writes params file ∨ WritesNull params file) ∧
      ((∀ file, file? params = some file ↔ Writes params file) ↔ ∀ file, ¬ WritesNull params file) ∧
      ∀ (options : SessionOptions) (processId : Nat) (workspace : Workspace) (past : List Event)
        (g : Nat) (message : Notification),
        (activeAfter options processId workspace past).delivery? g = some message →
        message.method = Method.showVirtualFile → message.params = params →
        let c := activeAfter options processId workspace past
        (c.step (.pump g)).journal = c.journal ++ [.delivered g message] ∧
          (∀ file, Writes params file ∨ WritesNull params file →
            (c.step (.pump g)).workspace =
              { c.workspace with store := c.workspace.store.keep file }) ∧
          ((∀ file, ¬ (Writes params file ∨ WritesNull params file)) →
            (c.step (.pump g)).workspace = c.workspace) := by
  refine ⟨fun file => file?_iff, ⟨fun h file hnull => ?_, fun h file => ?_⟩, ?_⟩
  · exact hnull.not_writes file ((h file).mp (file?_iff.mpr (.inr hnull)))
  · rw [file?_iff, or_iff_left (h file)]
  rintro options processId workspace past g message hdelivery hmethod rfl c
  have hfinds : c.service.FindsHandlers :=
    findsHandlers_of_activated rfl ⟨nofun, nofun⟩ rfl rfl (List.append_nil _).symm
  obtain ⟨hjournal, hworkspace⟩ := step_brings hfinds hdelivery hmethod
  refine ⟨hjournal, fun file hfile => ?_, fun hnone => ?_⟩
  · rw [hworkspace, file?_iff.mpr hfile]
    rfl
  · have hfile : file? message.params = none :=
      Option.eq_none_iff_forall_ne_some.mpr fun file hfile => hnone file (file?_iff.mp hfile)
    rw [hworkspace, hfile]
    rfl

/-- A session that is ready brings a file of its own uri, and the file is held. -/
theorem positional_file_is_kept :
    let file : VirtualFile := ⟨"v:1", "content", "map"⟩
    let past := queried ++ [.connection 1 (.receive (Frame.encode (fileNote file))),
      .connection 1 .read, .connection 1 .handle]
    let c := activeAfter {} 0 {} past
    ∃ message, c.delivery? 1 = some message ∧ message.method = Method.showVirtualFile ∧
      Writes message.params file ∧ (c.step (.pump 1)).workspace.store.get? "v:1" = some file := by
  intro file past c
  have hseen : (c.delivery? 1).any fun message =>
      message.method = Method.showVirtualFile && file? message.params = some file := by
    decide +kernel
  obtain ⟨message, hdelivery, hboth⟩ := (Option.any_eq_true _ _).mp hseen
  simp only [Bool.and_eq_true, decide_eq_true_eq] at hboth
  obtain ⟨hmethod, hfile⟩ := hboth
  have hforms := file?_iff.mp hfile
  obtain ⟨-, -, hbrings⟩ := files_are_brought_in_forms message.params
  obtain ⟨-, hkept, -⟩ := hbrings {} 0 {} past 1 message hdelivery hmethod rfl
  have hwrites : Writes message.params file :=
    hforms.resolve_right fun hnull => absurd hnull.uri_eq (by decide)
  refine ⟨message, hdelivery, hmethod, hwrites, ?_⟩
  rw [hkept file hforms, VirtualStore.get?_keep]
  rfl

/-- An array that holds a content behind a null is read as if it wrote a file. -/
theorem file_behind_null_is_read :
    file? (.arr [.null, .str "c"]) = some ⟨defaultVirtualUri, "c", ""⟩ ∧
      ∀ file, ¬ Writes (.arr [.null, .str "c"]) file :=
  ⟨rfl, nofun⟩

end Client
end LanguageClient
