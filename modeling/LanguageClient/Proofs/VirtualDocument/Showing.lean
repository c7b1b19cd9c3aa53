import LanguageClient.Proofs.VirtualDocument.Forms

/-!
# Showing the virtual file of a source

A call that is to show the virtual file of a source asks the session that is ready, if there is one,
and waits for the reply.  It is in one step that the reply is used: the file that it brings is kept,
the document is shown, a command tells the user why nothing is shown, and the call has its outcome.
Nothing of the call is seen in any other step.

* `VirtualFileInfo.IsWrittenBy`, `VirtualFileInfo.ofRecord?_eq_some_iff` — the replies that tell
  something about a virtual file.
* `Showing`, `Client.showFile_eq` — what a reply makes a call keep and show.
* `Client.outwardState`, `Client.presents` — what can be seen of a client, and files and host calls
  in order.
* `Client.call_of_event` — only its own step brings a call further.
* `Client.replyFor?`, `Client.Proceeds`, `Client.proceeds_poll` — what a call does when it goes on.
* `Client.EndsAtOnce` — a command that has no document, or no client, to ask.
* **`Client.virtual_files_are_shown_as_replied`** — for every call of every run.
-/

namespace LanguageClient

open Json (optional?)

/-! ### Replies -/

/-- The value writes what a reply tells about a virtual file: an object or an array of at most three
items, in which each text may be missing or null. -/
structure VirtualFileInfo.IsWrittenBy (info : VirtualFileInfo) (value : Json) : Prop where
  size : value.MayWrite 3
  uri : Json.TellsText (value.field? "uri" 0) info.uri?
  content : Json.TellsText (value.field? "virtualFileSource" 1) info.content?
  sourceMap : Json.TellsText (value.field? "prettySourceMap" 2) info.sourceMap?

theorem VirtualFileInfo.ofRecord?_eq_some_iff {value : Json} {info : VirtualFileInfo} :
    ofRecord? value = some info ↔ info.IsWrittenBy value := by
  obtain ⟨uri, content, sourceMap⟩ := info
  refine (Json.readThree_iff VirtualFileInfo.mk (optional? Json.asString?) (optional? Json.asString?)
    (optional? Json.asString?) VirtualFileInfo.mk.inj (by decide) (by nofun) (by nofun)
    (by nofun)).trans ?_
  simp only [Json.optional?_asString?_iff]
  constructor
  · rintro ⟨hmay, huri, hcontent, hsourceMap⟩
    exact ⟨hmay, huri, hcontent, hsourceMap⟩
  · rintro ⟨hmay, huri, hcontent, hsourceMap⟩
    exact ⟨hmay, huri, hcontent, hsourceMap⟩

/-- What a reply makes of showing the virtual file of a source: the result, the files that are kept,
and then the calls of the host. -/
inductive Showing (source : String) : Except SessionError Json →
    Except SessionError (Option String) → List VirtualFile → List HostCall → Prop
  /-- There is no reply. -/
  | failed (e : SessionError) : Showing source (.error e) (.error e) [] []
  /-- The reply tells nothing that could be read. -/
  | unreadable (value : Json) (hnull : value ≠ .null)
      (h : ∀ info : VirtualFileInfo, ¬ info.IsWrittenBy value) :
      Showing source (.ok value) (.error .invalidMessage) [] []
  /-- The source has no virtual file. -/
  | unmapped : Showing source (.ok .null) (.ok none) [] []
  /-- The document of the uri in the reply is shown, or else that of the uri of the source; a content
  in the reply is kept under that uri before. -/
  | shown (value : Json) (info : VirtualFileInfo) (h : info.IsWrittenBy value) (uri : String)
      (huri : uri = info.uri?.getD (virtualUriFor source)) :
      Showing source (.ok value) (.ok (some uri))
        (info.content?.map fun content => ⟨uri, content, info.sourceMap?.getD ""⟩).toList
        [.showDocument uri]

/-- What the user is told who has run the command and sees no document. -/
def notice? (source : String) : Except SessionError (Option String) → Option HostCall
  | .ok (some _) => none
  | .ok none => some (.showInformation ("No virtual file for " ++ source))
  | .error e => some (.showInformation ("Cannot show virtual file: " ++ e.message))

namespace Operation

/-- What the user is told about a result: only a command tells anything. -/
def notices (operation : Operation) (source : String)
    (result : Except SessionError (Option String)) : List HostCall :=
  match operation with
  | command _ _ _ => (notice? source result).toList
  | _ => []

/-- The outcome of a call with a result: a command succeeds in any case. -/
def shownAs (operation : Operation) (result : Except SessionError (Option String)) : Outcome :=
  match operation, result with
  | command _ _ _, _ => .command (.ok ())
  | _, .ok uri? => .shown uri?
  | _, .error e => .failed e

end Operation

namespace Client

variable {c d : Client} {k g : Nat} {call : Call} {source : String}

/-! ### What can be seen -/

/-- What can be seen of a client: the workspace with the virtual files and the host, and everything
that was noted. -/
def outwardState (c : Client) : Workspace × List Entry := (c.workspace, c.journal)

/-- Keeps files and calls the host, in order. -/
def presents (c : Client) (files : List VirtualFile) (calls : List HostCall) : Client :=
  (files.foldl keepFile c).sayAll calls

theorem outwardState_keepFile (h : d.outwardState = c.outwardState) (file : VirtualFile) :
    (d.keepFile file).outwardState = (c.keepFile file).outwardState := by
  simp only [outwardState, Prod.mk.injEq] at h
  simp [outwardState, keepFile, setFile, h.1, h.2]

theorem outwardState_say (h : d.outwardState = c.outwardState) (hostCall : HostCall) :
    (d.say hostCall).outwardState = (c.say hostCall).outwardState := by
  simp only [outwardState, Prod.mk.injEq] at h
  simp [outwardState, say, note, h.1, h.2]

theorem outwardState_sayAll (h : d.outwardState = c.outwardState) (calls : List HostCall) :
    (d.sayAll calls).outwardState = (c.sayAll calls).outwardState := by
  induction calls generalizing c d with
  | nil => exact h
  | cons hostCall rest ih => exact ih (outwardState_say h hostCall)

/-- What is presented shows in the same way, whatever else differs. -/
theorem outwardState_presents (h : d.outwardState = c.outwardState) (files : List VirtualFile)
    (calls : List HostCall) :
    (d.presents files calls).outwardState = (c.presents files calls).outwardState := by
  induction files generalizing c d with
  | nil => exact outwardState_sayAll h calls
  | cons file rest ih => exact ih (outwardState_keepFile h file)

theorem presents_append (c : Client) (files : List VirtualFile) (calls more : List HostCall) :
    c.presents files (calls ++ more) = (c.presents files calls).sayAll more :=
  List.foldl_append

theorem outwardState_tidy (c : Client) : c.tidy.outwardState = c.outwardState := by
  rw [outwardState, workspace_tidy, journal_tidy, outwardState]

theorem outwardState_updateAttempt (c : Client) (g : Nat) (f : Attempt → Attempt) :
    (c.updateAttempt g f).outwardState = c.outwardState := by
  rw [outwardState, workspace_updateAttempt, journal_updateAttempt, outwardState]

theorem outwardState_send (c : Client) (g : Nat) (method : String) (params : Json) (span : Nat) :
    (c.send g method params span).1.outwardState = c.outwardState := by
  unfold send
  split
  · exact outwardState_updateAttempt c g _
  · rfl

theorem outwardState_settle? {id : Nat} {reply : Except SessionError Json}
    (h : c.settle? g id = some (d, reply)) : d.outwardState = c.outwardState := by
  obtain ⟨_, after, -, -, rfl⟩ := settle?_eq_some_iff.mp h
  exact outwardState_updateAttempt c g _

/-! ### Using a reply -/

/-- What a call makes of a reply is told by the reply alone. -/
theorem showFile_eq (c : Client) (source : String) (reply : Except SessionError Json) :
    ∃ result files calls, Showing source reply result files calls ∧
      c.showFile source reply = (c.presents files calls, result) := by
  cases reply with
  | error e => exact ⟨_, _, _, .failed e, rfl⟩
  | ok value =>
      by_cases hnull : value = .null
      · subst hnull
        exact ⟨_, _, _, .unmapped, rfl⟩
      · have hread : VirtualFileInfo.ofJson? value = (VirtualFileInfo.ofRecord? value).map some := by
          cases value <;> first | rfl | exact absurd rfl hnull
        cases hrecord : VirtualFileInfo.ofRecord? value with
        | none =>
            refine ⟨_, _, _, .unreadable value hnull fun info hinfo => ?_, ?_⟩
            · rw [VirtualFileInfo.ofRecord?_eq_some_iff.mpr hinfo] at hrecord
              cases hrecord
            · rw [showFile, hread, hrecord]
              rfl
        | some info =>
            refine ⟨_, _, _,
              .shown value info (VirtualFileInfo.ofRecord?_eq_some_iff.mp hrecord) _ rfl, ?_⟩
            rw [showFile, hread, hrecord]
            obtain ⟨uri?, content?, sourceMap?⟩ := info
            cases content? <;> rfl

/-- A call ends with the result of showing a file. -/
theorem concludeShow_eq (hcall : c.calls[k]? = some call) (source : String)
    (result : Except SessionError (Option String)) :
    c.concludeShow k source result =
      (c.sayAll (call.operation.notices source result)).finish k (call.operation.shownAs result) := by
  have hoperation : c.operation? k = some call.operation := by rw [operation?, hcall, Option.map_some]
  unfold concludeShow
  rw [hoperation]
  cases call.operation with
  | command id args reported =>
      rcases result with e | _ | uri <;> exact finishCommand_ok _ k
  | _ => cases result <;> rfl

/-! ### Going on -/

/-- What a call has to go on with: a call that has not begun finds no session, and a call that waits
has a reply. -/
def replyFor? (c : Client) : Phase → Option (Except SessionError Json)
  | .fresh => if c.session?.isNone then some (.error .notRunning) else none
  | .awaiting g id _ => (c.settle? g id).map Prod.snd
  | _ => none

/-- Sends the request for the virtual file of a source; its number comes with the client. -/
def queryVirtualFile (c : Client) (g : Nat) (source : String) : Client × Nat :=
  c.send g Method.queryVirtualFileInfo (queryParams source) c.options.requestTimeout

/-- What a call for the virtual file of a source does when it goes on: with a reply it presents what
the reply makes of it and ends, and without one it can at most ask a session. -/
inductive Proceeds (c : Client) (k : Nat) (call : Call) (source : String) (d : Client) : Prop
  | waits (hreply : c.replyFor? call.phase = none) (houtward : d.outwardState = c.outwardState)
      (hcall : d.calls[k]? = some call ∨ call.phase = .fresh ∧ ∃ g id, c.session? = some g ∧
        (c.queryVirtualFile g source).2 = id ∧
        d.calls[k]? = some { call with phase := .awaiting g id (.virtualFile source) })
  | ends (reply : Except SessionError Json) (result : Except SessionError (Option String))
      (files : List VirtualFile) (calls : List HostCall)
      (hreply : c.replyFor? call.phase = some reply)
      (hshowing : Showing source reply result files calls)
      (houtward : d.outwardState =
        (c.presents files (calls ++ call.operation.notices source result)).outwardState)
      (hcall : d.calls[k]? = some { call with phase := .finished (call.operation.shownAs result) })

theorem proceeds_tidy (h : c.Proceeds k call source d) : c.Proceeds k call source d.tidy := by
  cases h with
  | waits hreply houtward hcall =>
      exact .waits hreply ((outwardState_tidy d).trans houtward) (by rwa [tidy_calls])
  | ends reply result files calls hreply hshowing houtward hcall =>
      exact .ends reply result files calls hreply hshowing ((outwardState_tidy d).trans houtward)
        (by rwa [tidy_calls])

theorem getElem?_setPhase (hcall : c.calls[k]? = some call) (phase : Phase) :
    (c.setPhase k phase).calls[k]? = some { call with phase } :=
  Life.getElem?_setPhase_self (l := c.life) hcall phase

theorem workspaceEffect_presents (files : List VirtualFile) (calls : List HostCall) :
    WorkspaceEffect fun c => c.presents files calls :=
  (workspaceEffect_sayAll calls).comp (WorkspaceEffect.foldl (fun file c => c.keepFile file)
    (fun _ => workspaceEffect_setFile _ _ _) files)

/-- A reply is used in one step. -/
theorem proceeds_useReply {reply : Except SessionError Json} (hcall : c.calls[k]? = some call)
    (hreply : c.replyFor? call.phase = some reply) (houtward : d.outwardState = c.outwardState)
    (hcalls : d.calls = c.calls) :
    c.Proceeds k call source (d.useReply k reply (.virtualFile source)) := by
  obtain ⟨result, files, calls, hshowing, hshown⟩ := d.showFile_eq source reply
  have hpresented : (d.presents files calls).calls[k]? = some call := by
    rwa [(workspaceEffect_presents files calls).calls, hcalls]
  have hend : d.useReply k reply (.virtualFile source) =
      (d.presents files (calls ++ call.operation.notices source result)).finish k
        (call.operation.shownAs result) := by
    rw [useReply, hshown, presents_append]
    exact concludeShow_eq hpresented source result
  rw [hend]
  refine .ends reply result files calls hreply hshowing ?_ ?_
  · exact outwardState_presents houtward files _
  · refine getElem?_setPhase ?_ _
    rwa [(workspaceEffect_presents files _).calls, hcalls]

theorem proceeds_askSession (hcall : c.calls[k]? = some call) (hfresh : call.phase = .fresh) :
    c.Proceeds k call source (c.askSession k Method.queryVirtualFileInfo (queryParams source)
      (.virtualFile source)) := by
  unfold askSession
  cases hsession : c.session? with
  | none =>
      refine proceeds_useReply hcall ?_ rfl rfl
      rw [hfresh, replyFor?, hsession]
      rfl
  | some g =>
      have hcalls : (c.queryVirtualFile g source).1.calls = c.calls :=
        congrArg Life.calls (life_send c g _ _ _)
      have hself : (c.queryVirtualFile g source).1.calls[k]? = some call := by rwa [hcalls]
      refine .waits ?_ (outwardState_send c g _ _ _)
        (.inr ⟨hfresh, g, _, hsession, rfl, getElem?_setPhase hself _⟩)
      rw [hfresh, replyFor?, hsession]
      rfl

theorem proceeds_awaiting {id : Nat} (hcall : c.calls[k]? = some call)
    (hphase : call.phase = .awaiting g id (.virtualFile source)) :
    c.Proceeds k call source (c.afterReply k g id (.virtualFile source)) := by
  unfold afterReply
  cases hsettle : c.settle? g id with
  | none =>
      refine .waits ?_ rfl (.inl hcall)
      rw [hphase, replyFor?, hsettle]
      rfl
  | some settled =>
      obtain ⟨d, reply⟩ := settled
      refine proceeds_useReply hcall ?_ (outwardState_settle? hsettle)
        (congrArg Life.calls (life_settle? hsettle))
      rw [hphase, replyFor?, hsettle]
      rfl

/-! ### Steps -/

theorem step_poll_of_fresh (hcall : c.calls[k]? = some call) (hfresh : call.phase = .fresh) :
    c.step (.poll k) = (c.beginCall k call.operation).tidy := by
  rw [step, act, poll_eq hcall, hfresh]
  rfl

/-- A call that begins by asking for the virtual file of a source. -/
theorem proceeds_poll_of_fresh (hcall : c.calls[k]? = some call) (hfresh : call.phase = .fresh)
    (hbegins : c.beginCall k call.operation = c.askSession k Method.queryVirtualFileInfo
      (queryParams source) (.virtualFile source)) :
    c.Proceeds k call source (c.step (.poll k)) := by
  rw [step_poll_of_fresh hcall hfresh, hbegins]
  exact proceeds_tidy (proceeds_askSession hcall hfresh)

/-- A call that waits for the reply about a source. -/
theorem proceeds_poll_of_awaiting {id : Nat} (hcall : c.calls[k]? = some call)
    (hphase : call.phase = .awaiting g id (.virtualFile source)) :
    c.Proceeds k call source (c.step (.poll k)) := by
  have hgo : c.step (.poll k) = (c.afterReply k g id (.virtualFile source)).tidy := by
    rw [step, act, poll_eq hcall, hphase]
    split
    · rfl
    · rename_i hcan
      rw [canGoOn, Bool.not_eq_true, Option.isSome_eq_false_iff, Option.isNone_iff_eq_none] at hcan
      rw [afterReply, hcan]
  rw [hgo]
  exact proceeds_tidy (proceeds_awaiting hcall hphase)

/-- A call that is over does nothing more. -/
theorem step_poll_of_over (hcall : c.calls[k]? = some call) (hover : call.phase.isOver) :
    (c.step (.poll k)).outwardState = c.outwardState ∧ (c.step (.poll k)).calls[k]? = some call := by
  have hcan : ¬ c.canGoOn k call.phase := by
    cases hphase : call.phase <;> simp_all [Phase.isOver, canGoOn]
  rw [step, act, poll_eq hcall, if_neg hcan]
  exact ⟨outwardState_tidy c, by rwa [tidy_calls]⟩

theorem proceeds_poll_of_over (hcall : c.calls[k]? = some call) (hover : call.phase.isOver) :
    c.Proceeds k call source (c.step (.poll k)) := by
  obtain ⟨houtward, hself⟩ := step_poll_of_over hcall hover
  refine .waits ?_ houtward (.inl hself)
  cases hphase : call.phase <;> simp_all [Phase.isOver, replyFor?]

/-- **Only its own step brings a call further**: any other event leaves it as it is, or its caller
goes away. -/
theorem call_of_event (h : c.life.Orderly) (hcall : c.calls[k]? = some call) {event : Event}
    (hother : event ≠ .poll k) :
    (c.step event).calls[k]? = some call ∨ event = .cancel k ∧ call.phase.isOver = false ∧
      (c.step event).calls[k]? = some { call with phase := .dropped } := by
  rw [step, tidy_calls]
  -- Most events change no call at all; an invocation adds one, a poll or a cancellation changes one.
  have hsame : (c.act event).calls = c.calls → (c.act event).calls[k]? = some call := by
    intro hcalls
    rwa [hcalls]
  cases hbeside : event.isBeside with
  | true =>
      refine .inl (hsame ?_)
      rw [eq_amid_of_beside (isBeside_act hbeside) c]
      rfl
  | false =>
      cases event with
      | invoke operation =>
          left
          rw [act, invoke]
          split
          · rwa [List.getElem?_append_left (List.getElem?_eq_some_iff.mp hcall).1]
          · exact hcall
      | poll i =>
          have hi : i ≠ k := fun hi => hother (hi ▸ rfl)
          left
          rw [act, poll]
          split
          · rename_i other hfound
            split
            · rcases entersPhase_goOn h hfound with ⟨phase, hcalls, -⟩ | hcalls
              · rw [hcalls]
                exact (Life.getElem?_setPhase_ne c.life hi phase).trans hcall
              · rwa [hcalls]
            · exact hcall
          · exact hcall
      | cancel i =>
          rcases cancel_cases c i with ⟨hnothing, -⟩ | ⟨other, -, hfound, hover, -⟩
          · exact .inl (hsame (congrArg calls hnothing))
          · have hcalls : (c.act (.cancel i)).calls = (c.setPhase i .dropped).calls :=
              congrArg Life.calls (life_cancel hfound hover)
            rw [hcalls]
            by_cases hi : i = k
            · subst hi
              obtain rfl : other = call := Option.some.inj (hfound.symm.trans hcall)
              exact .inr ⟨rfl, hover, getElem?_setPhase hcall _⟩
            · exact .inl ((Life.getElem?_setPhase_ne c.life hi _).trans hcall)
      | relayNotification g message =>
          exact .inl (hsame (congrArg Life.calls (life_act_relayNotification c g message)))
      | release => exact .inl (hsame rfl)
      | _ => cases hbeside

/-! ### Commands that end at once -/

/-- A command ends at once: the host is called, nobody is asked, and the command has a result. -/
structure EndsAtOnce (c : Client) (k : Nat) (call : Call) (hostCalls : List HostCall)
    (result : Except CommandError Unit) (d : Client) : Prop where
  outwardState : d.outwardState = (c.sayAll hostCalls).outwardState
  call : d.calls[k]? = some { call with phase := .finished (.command result) }
  requests : ∀ g, (d.link g).exchanges = (c.link g).exchanges ∧
    (d.link g).outbound = (c.link g).outbound

theorem endsAtOnce_finish (hcall : c.calls[k]? = some call) (hostCalls : List HostCall)
    (result : Except CommandError Unit) :
    c.EndsAtOnce k call hostCalls result
      ((c.sayAll hostCalls).finish k (.command result)).tidy where
  outwardState := outwardState_tidy _
  call := by
    rw [tidy_calls]
    refine getElem?_setPhase ?_ _
    rwa [(workspaceEffect_sayAll hostCalls).calls]
  requests g := by
    have hlink : ((c.sayAll hostCalls).finish k (.command result)).link g = c.link g :=
      link_of_attempts ((workspaceEffect_sayAll hostCalls).attempts c) g
    rw [← hlink]
    rcases link_tidy ((c.sayAll hostCalls).finish k (.command result)) g with hsame | haborted
    · rw [hsame]
      exact ⟨rfl, rfl⟩
    · rw [haborted]
      exact ⟨rfl, rfl⟩

variable {id : String} {args : List Json} {reported : Bool}

/-- The beginning of the command that shows virtual files. -/
theorem beginCall_showVirtualFile
    (hresolve : c.workspace.commands.resolve id = .ok .showVirtualFile) :
    c.beginCall k (.command id args reported) =
      c.runAbout k id args "Open a component file to show its virtual file" fun source =>
        c.askSession k Method.queryVirtualFileInfo (queryParams source) (.virtualFile source) := by
  rw [beginCall, hresolve]
  rfl

/-- A command that finds no document to be about tells the user so and succeeds. -/
theorem endsAtOnce_poll_of_no_document (hcall : c.calls[k]? = some call)
    (hfresh : call.phase = .fresh) (hop : call.operation = .command id args reported)
    (hresolve : c.workspace.commands.resolve id = .ok .showVirtualFile)
    (hnone : c.subject? args = none) :
    c.EndsAtOnce k call [.showInformation "Open a component file to show its virtual file"] (.ok ())
      (c.step (.poll k)) := by
  rw [step_poll_of_fresh hcall hfresh, hop, beginCall_showVirtualFile hresolve, runAbout, hnone]
  dsimp only
  rw [finishCommand_ok]
  exact endsAtOnce_finish hcall _ _

/-- A command about a document asks for its virtual file, as long as somebody holds the client. -/
theorem proceeds_poll_of_command (hcall : c.calls[k]? = some call) (hfresh : call.phase = .fresh)
    (hop : call.operation = .command id args reported)
    (hresolve : c.workspace.commands.resolve id = .ok .showVirtualFile)
    (hsubject : c.subject? args = some source) (hheld : c.isHeld) :
    c.Proceeds k call source (c.step (.poll k)) := by
  refine proceeds_poll_of_fresh hcall hfresh ?_
  rw [hop, beginCall_showVirtualFile hresolve, runAbout, hsubject]
  dsimp only
  rw [if_pos hheld]

/-- Who runs a command that is reported holds the client. -/
theorem not_reported_of_not_held (hcall : c.calls[k]? = some call) (hfresh : call.phase = .fresh)
    (hop : call.operation = .command id args reported) (hheld : c.isHeld = false) :
    reported = false := by
  have hholds : call.holdsClient = reported := by
    simp [Call.holdsClient, hfresh, hop, Phase.isOver, Phase.hasBegun]
  rw [← hholds]
  simp only [isHeld, Bool.or_eq_false_iff, List.any_eq_false] at hheld
  exact Bool.not_eq_true _ ▸ hheld.2 call (List.mem_of_getElem? hcall)

/-- A command about a document fails when nobody holds the client any more. -/
theorem endsAtOnce_poll_of_not_held (hcall : c.calls[k]? = some call) (hfresh : call.phase = .fresh)
    (hop : call.operation = .command id args reported)
    (hresolve : c.workspace.commands.resolve id = .ok .showVirtualFile)
    (hsubject : c.subject? args = some source) (hheld : c.isHeld = false) :
    c.EndsAtOnce k call [] (.error (.failed id "Client is deactivated")) (c.step (.poll k)) := by
  obtain rfl := not_reported_of_not_held hcall hfresh hop hheld
  have hoperation : c.operation? k = some (.command id args false) := by
    rw [operation?, hcall, Option.map_some, hop]
  have hfinish : ∀ error,
      c.finishCommand k (.error error) = c.finish k (.command (.error error)) := by
    intro error
    simp only [finishCommand, hoperation]
  rw [step_poll_of_fresh hcall hfresh, hop, beginCall_showVirtualFile hresolve, runAbout, hsubject]
  dsimp only
  rw [if_neg (by simp [hheld]), hfinish]
  exact endsAtOnce_finish hcall [] _

/-! ### Calls of a run -/

/-- Every call for the virtual file of a source has not begun, waits for the reply about that source,
or is over. -/
def SeeksOwnReply (c : Client) : Prop :=
  ∀ (k : Nat) (call : Call) (source : String), c.calls[k]? = some call →
    call.operation = .showVirtualFile source → call.phase = .fresh ∨
      (∃ g id, call.phase = .awaiting g id (.virtualFile source)) ∨ call.phase.isOver

theorem proceeds_poll (hs : c.SeeksOwnReply) (hcall : c.calls[k]? = some call)
    (hop : call.operation = .showVirtualFile source) :
    c.Proceeds k call source (c.step (.poll k)) := by
  rcases hs k call source hcall hop with hfresh | ⟨g, id, hphase⟩ | hover
  · refine proceeds_poll_of_fresh hcall hfresh ?_
    rw [hop]
    rfl
  · exact proceeds_poll_of_awaiting hcall hphase
  · exact proceeds_poll_of_over hcall hover

theorem seeksOwnReply_step (h : c.life.Orderly) (hs : c.SeeksOwnReply) (event : Event) :
    (c.step event).SeeksOwnReply := by
  intro k call' source hcall' hop
  rcases call_of_step h hcall' with hsame | ⟨-, hfresh⟩ | hdropped |
    ⟨call, hcall, hoperation, rfl, -⟩
  · exact hs k call' source hsame hop
  · exact .inl hfresh
  · exact .inr (.inr (by rw [hdropped]; rfl))
  · rw [hoperation] at hop
    -- The call has taken its own step, in which it can only wait for that reply or end.
    cases proceeds_poll hs hcall hop with
    | waits hreply houtward hnext =>
        rcases hnext with hsame | ⟨-, g, id, -, -, hawaits⟩
        · obtain rfl := Option.some.inj (hcall'.symm.trans hsame)
          exact hs k call' source hcall hop
        · obtain rfl := Option.some.inj (hcall'.symm.trans hawaits)
          exact .inr (.inl ⟨g, id, rfl⟩)
    | ends reply result files calls hreply hshowing houtward hnext =>
        obtain rfl := Option.some.inj (hcall'.symm.trans hnext)
        exact .inr (.inr rfl)

theorem seeksOwnReply_run (h : c.life.Orderly) (hs : c.SeeksOwnReply) (events : List Event) :
    (c.run events).SeeksOwnReply := by
  induction events generalizing c with
  | nil => exact hs
  | cons event rest ih => exact ih (orderly_step h event) (seeksOwnReply_step h hs event)

/-- **Virtual files are shown as replied.**  In every run a call for the virtual file of a source, or
the command that shows the one of a document, is brought further only by its own steps.  One of these
uses what the server, the connection or the lack of a session has for it, and in that step the call
ends: a file that the reply brings is kept, then its document is shown, and nothing is kept or shown
when there is none; a command tells the user so, and succeeds.  No other step of the call shows
anything, and neither does the call after its end.  A command that is given no document when none is
active only tells the user that.  A command about a document begins like this as long as somebody
holds the client; when nobody does any more it fails, and nothing is seen of it. -/
theorem virtual_files_are_shown_as_replied (options : SessionOptions) (processId : Nat)
    (workspace : Workspace) (events : List Event) :
    let c := (Client.new options processId workspace).run events
    ∀ (k : Nat) (call : Call), c.calls[k]? = some call →
      (∀ event, event ≠ .poll k → (c.step event).calls[k]? = some call ∨
        event = .cancel k ∧ call.phase.isOver = false ∧
          (c.step event).calls[k]? = some { call with phase := .dropped }) ∧
      (call.phase.isOver → (c.step (.poll k)).outwardState = c.outwardState ∧
        (c.step (.poll k)).calls[k]? = some call) ∧
      (∀ source, call.operation = .showVirtualFile source →
        c.Proceeds k call source (c.step (.poll k))) ∧
      (∀ id args reported, call.operation = .command id args reported → call.phase = .fresh →
        c.workspace.commands.resolve id = .ok .showVirtualFile →
        (c.subject? args = none → c.EndsAtOnce k call
          [.showInformation "Open a component file to show its virtual file"] (.ok ())
          (c.step (.poll k))) ∧
          ∀ source, c.subject? args = some source →
            (c.isHeld → c.Proceeds k call source (c.step (.poll k))) ∧
              (c.isHeld = false → c.EndsAtOnce k call []
                (.error (.failed id "Client is deactivated")) (c.step (.poll k)))) ∧
      ∀ g number source, call.phase = .awaiting g number (.virtualFile source) →
        c.Proceeds k call source (c.step (.poll k)) := by
  intro c k call hcall
  have h : c.life.Orderly := orderly_run (orderly_new options processId workspace) events
  have hseeks : c.SeeksOwnReply :=
    seeksOwnReply_run (orderly_new options processId workspace)
      (by simp [SeeksOwnReply, Client.new]) events
  refine ⟨fun event => call_of_event h hcall, step_poll_of_over hcall,
    fun source => proceeds_poll hseeks hcall, ?_,
    fun g number source => proceeds_poll_of_awaiting hcall⟩
  intro id args reported hop hfresh hresolve
  refine ⟨endsAtOnce_poll_of_no_document hcall hfresh hop hresolve, fun source hsubject => ?_⟩
  exact ⟨proceeds_poll_of_command hcall hfresh hop hresolve hsubject,
    endsAtOnce_poll_of_not_held hcall hfresh hop hresolve hsubject⟩

/-- A call is a command to show the virtual file of a document, or of none, and has not begun. -/
def isToShow (c : Client) (k : Nat) (subject? : Option String) : Bool :=
  (c.calls[k]?).any fun call => !call.phase.hasBegun && match call.operation with
    | .command id args _ =>
        c.workspace.commands.find? id = some .showVirtualFile && c.subject? args = subject?
    | _ => false

theorem exists_of_isToShow {subject? : Option String} (h : c.isToShow k subject?) :
    ∃ call id args reported, c.calls[k]? = some call ∧ call.phase = .fresh ∧
      call.operation = .command id args reported ∧
      c.workspace.commands.resolve id = .ok .showVirtualFile ∧ c.subject? args = subject? := by
  obtain ⟨call, hcall, hfacts⟩ := (Option.any_eq_true _ _).mp h
  rw [Bool.and_eq_true, Bool.not_eq_true'] at hfacts
  obtain ⟨hbegun, hoperation⟩ := hfacts
  have hfresh : call.phase = .fresh := by
    cases hphase : call.phase <;> simp_all [Phase.hasBegun]
  split at hoperation
  · rename_i id args reported hop
    simp only [Bool.and_eq_true, decide_eq_true_eq] at hoperation
    obtain ⟨hfound, hsubject⟩ := hoperation
    refine ⟨call, id, args, reported, hcall, hfresh, hop, ?_, hsubject⟩
    rw [Registry.resolve, hfound]
  · cases hoperation

/-- A reply has come for a call that asked for the virtual file of a source; and a command that is
given no document finds none. -/
theorem reply_is_shown_and_missing_document_is_declined :
    let file : VirtualFile := ⟨"v:1", "content", "map"⟩
    let c := (Client.new {} 0 {}).run ([.invoke .activate, .poll 0] ++ queried ++
      [.connection 1 (.receive (Frame.encode (fileReply file))), .connection 1 .read,
        .connection 1 .handle, .invoke (.command CommandName.showVirtualFile [] false)])
    (∃ call, c.calls[1]? = some call ∧ (c.replyFor? call.phase).isSome ∧
      c.Proceeds 1 call "file:///a.vue" (c.step (.poll 1))) ∧
    ∃ call, c.calls[2]? = some call ∧ c.EndsAtOnce 2 call
      [.showInformation "Open a component file to show its virtual file"] (.ok ())
      (c.step (.poll 2)) := by
  intro file c
  have hfirst : (c.calls[1]?).any fun call => (c.replyFor? call.phase).isSome &&
      match call.operation with
      | .showVirtualFile source => source = "file:///a.vue"
      | _ => false := by decide +kernel
  have hsecond : c.isToShow 2 none := by decide +kernel
  constructor
  · obtain ⟨call, hcall, hfacts⟩ := (Option.any_eq_true _ _).mp hfirst
    rw [Bool.and_eq_true] at hfacts
    obtain ⟨hreply, hoperation⟩ := hfacts
    refine ⟨call, hcall, hreply, ?_⟩
    split at hoperation
    · rename_i source hop
      rw [decide_eq_true_eq] at hoperation
      obtain ⟨-, -, hshows, -⟩ := virtual_files_are_shown_as_replied {} 0 {} _ 1 call hcall
      exact hshows _ (hoperation ▸ hop)
    · cases hoperation
  · obtain ⟨call, id, args, reported, hcall, hfresh, hop, hresolve, hnone⟩ :=
      exists_of_isToShow hsecond
    obtain ⟨-, -, -, hcommands, -⟩ := virtual_files_are_shown_as_replied {} 0 {} _ 2 call hcall
    exact ⟨call, hcall, (hcommands id args reported hop hfresh hresolve).1 hnone⟩

/-- The command about a document fails and tells the user nothing when nobody holds the client. -/
theorem command_of_a_released_client_fails :
    let c := (Client.new {} 0 {}).run ([.invoke .activate, .poll 0] ++ queried.take 9 ++
      [.release, .invoke (.command CommandName.showVirtualFile [.str "file:///a.vue"] false)])
    ∃ call id args reported, c.calls[1]? = some call ∧
      call.operation = .command id args reported ∧
      c.workspace.commands.resolve id = .ok .showVirtualFile ∧
      c.subject? args = some "file:///a.vue" ∧
      (c.step (.poll 1)).calls[1]? = some { call with
        phase := .finished (.command (.error (.failed id "Client is deactivated"))) } ∧
      (c.step (.poll 1)).outwardState = c.outwardState := by
  intro c
  have hshows : c.isToShow 1 (some "file:///a.vue") := by decide +kernel
  have hheld : c.isHeld = false := by decide +kernel
  -- From here on only these facts matter, not the run that they come from.
  clear_value c
  obtain ⟨call, id, args, reported, hcall, hfresh, hop, hresolve, hsubject⟩ :=
    exists_of_isToShow hshows
  have hends := endsAtOnce_poll_of_not_held hcall hfresh hop hresolve hsubject hheld
  exact ⟨call, id, args, reported, hcall, hop, hresolve, hsubject, hends.call, hends.outwardState⟩

end Client
end LanguageClient
