import LanguageClient.Proofs.Connection.Writing
import LanguageClient.Proofs.Message.Members

/-!
# The bytes that a server receives

What the server of a connection receives are whole frames, one for each message written.  The messages
are the calls and the answers of the connection, each of them in its own order, and a message is read
back as it was written when it is legible.

* `IsAnswerTo` — what an answer to a request of the server has to be.
* `Connection.legible_of_written` — which of the messages written are legible.
* **`Connection.received_frames_are_calls_and_answers`** — what the server receives and reads.
-/

namespace LanguageClient

/-! ### Answers -/

/-- What an answer to a request of the server has to be: it has the identifier of the request and
either a result or an error. -/
inductive IsAnswerTo (request : Request) : Outgoing → Prop
  /-- No configuration, once for each item asked for. -/
  | configuration (items : Nat) (hmethod : request.method = "workspace/configuration")
      (hitems : ∀ list, request.params.get? "items" = some (.arr list) → items = list.length)
      (hnone : (∀ list, request.params.get? "items" ≠ some (.arr list)) → items = 0) :
      IsAnswerTo request (.answer ⟨request.id, some (.arr (List.replicate items .null)), none⟩)
  /-- A result that is null. -/
  | acknowledged (hmethod : request.method = "client/registerCapability" ∨
      request.method = "client/unregisterCapability" ∨
      request.method = "window/workDoneProgress/create") :
      IsAnswerTo request (.answer ⟨request.id, some .null, none⟩)
  /-- The error that the method is not known. -/
  | unknown (e : ResponseError) (hcode : e.code = -32601)
      (hmethod : request.method ∉ ["workspace/configuration", "client/registerCapability",
        "client/unregisterCapability", "window/workDoneProgress/create"]) :
      IsAnswerTo request (.answer ⟨request.id, none, some e⟩)

theorem configurationItems_of_array {params : Json} {list : List Json}
    (h : params.get? "items" = some (.arr list)) : configurationItems params = list.length := by
  simp [configurationItems, h, Json.asArray?]

theorem configurationItems_of_none {params : Json}
    (h : ∀ list, params.get? "items" ≠ some (.arr list)) : configurationItems params = 0 := by
  unfold configurationItems
  cases hitems : params.get? "items" with
  | none => rfl
  | some value =>
      cases value with
      | arr list => exact absurd hitems (h list)
      | _ => rfl

theorem answers_answerFor (request : Request) :
    IsAnswerTo request (.answer (answerFor request)) := by
  unfold answerFor
  split
  · rename_i hmethod
    exact .configuration _ hmethod (fun _ => configurationItems_of_array)
      configurationItems_of_none
  · rename_i hconfiguration
    split
    · rename_i hmethod
      exact .acknowledged (by simpa [acknowledgedMethods] using hmethod)
    · rename_i hmethod
      refine .unknown _ rfl ?_
      rw [List.mem_cons, not_or]
      exact ⟨hconfiguration, hmethod⟩

/-! ### Requests of the server -/

theorem RequestId.fitsWord_of_ofJson? {value : Json} {n : Int}
    (h : RequestId.ofJson? value = some (.number n)) : Number.FitsWord n := by
  unfold RequestId.ofJson? at h
  split at h
  · rename_i m hint
    obtain rfl : m = n := by simpa using h
    simp only [Json.asInt64?, Json.asIntIn?] at hint
    split at hint
    · split at hint
      · rename_i hbounds
        cases hint
        exact ⟨hbounds.1, Int.le_trans hbounds.2 (by decide)⟩
      · cases hint
    · cases hint
  · obtain ⟨text, -, htext⟩ := Option.map_eq_some_iff.mp h
    cases htext

theorem Request.fitsWord_of_ofJson? {value : Json} {request : Request}
    (h : Request.ofJson? value = some request) {n : Int} (hid : request.id = .number n) :
    Number.FitsWord n := by
  unfold ofJson? at h
  split at h
  · obtain ⟨id, hfound, h⟩ := Option.bind_eq_some_iff.mp h
    obtain ⟨method, -, h⟩ := Option.bind_eq_some_iff.mp h
    obtain ⟨params, -, h⟩ := Option.bind_eq_some_iff.mp h
    cases h
    have hnumber : id = .number n := hid
    subst hnumber
    unfold Json.required? at hfound
    split at hfound
    · exact RequestId.fitsWord_of_ofJson? hfound
    · cases hfound
  · cases h

namespace Connection

variable {c d : Connection} {actions : List Action}

/-- A request that is answered is one that the server has sent. -/
theorem exists_value_of_post? {action : Action} {request : Request}
    (h : c.post? action = some (.replied request)) :
    ∃ value, Inbound.classify? value = some (.request request) := by
  cases action with
  | handle =>
      dsimp only [post?] at h
      split at h
      · rename_i value rest hinbox
        split at h
        · rename_i received hvalue
          cases h
          exact ⟨value, hvalue⟩
        · cases h
      · cases h
  | _ => simp [post?] at h

theorem fitsWord_of_post? {action : Action} {request : Request}
    (h : c.post? action = some (.replied request)) {n : Int} (hid : request.id = .number n) :
    Number.FitsWord n := by
  obtain ⟨value, hvalue⟩ := exists_value_of_post? h
  unfold Inbound.classify? at hvalue
  split at hvalue
  · split at hvalue <;> obtain ⟨found, hfound, heq⟩ := Option.map_eq_some_iff.mp hvalue
    · cases heq
      exact Request.fitsWord_of_ofJson? hfound hid
    · cases heq
  · obtain ⟨found, -, heq⟩ := Option.map_eq_some_iff.mp hvalue
    cases heq

theorem fitsWord_of_replied {request : Request} (h : request ∈ c.replied actions) {n : Int}
    (hid : request.id = .number n) : Number.FitsWord n := by
  obtain ⟨post, hpost, hreplied⟩ := List.mem_filterMap.mp h
  obtain ⟨d, action, hstep⟩ := mem_observe hpost
  cases post with
  | replied other =>
      cases hreplied
      exact fitsWord_of_post? hstep hid
  | accepted message => cases hreplied
  | cut message => cases hreplied

/-! ### Runs -/

/-- The messages that were written, in the order in which they were written. -/
theorem exists_sent (hrun : ({} : Connection).run? actions = some c) :
    ∃ sent, c.mail.MatchesPosts sent (({} : Connection).posts actions) := by
  have hempty : ({} : Connection).mail.MatchesPosts [] [] := Mail.matchesPosts_empty
  obtain ⟨sent, hsent⟩ := matchesPosts_run hempty hrun
  exact ⟨sent, hsent⟩

/-- A message that was written is a call that was taken or the answer to a request that was
handled. -/
theorem legible_of_written {sent : List Outgoing}
    (h : c.mail.MatchesPosts sent (({} : Connection).posts actions)) {message : Outgoing}
    (hmessage : message ∈ sent) (hlegible : message.IsLegible) :
    Frame.IsLegible Json.depthLimit message.toJson := by
  cases hcall : message.isCall with
  | true => exact Outgoing.legible_call hcall hlegible
  | false =>
      have hanswer : message.isAnswer := by simp [Outgoing.isAnswer, hcall]
      have hmem : message ∈ (({} : Connection).replied actions).map
          fun request => Outgoing.answer (answerFor request) := by
        rw [replied, ← h.answers]
        simp [hmessage, hanswer]
      obtain ⟨request, hrequest, rfl⟩ := List.mem_map.mp hmem
      exact Outgoing.legible_answerFor fun n hid => fitsWord_of_replied hrequest hid

/-- **The bytes that a server receives.**  In every run of a connection in which no message is cut
short, the server receives whole frames, and reading takes them off one by one.  They are the frames
of an interleaving of a beginning of the calls that were taken, in order, with one answer to each
request of the server that was handled, in order; the last answer may still be in the writer.  A
message whose caller has put into it only what is legible is read back as it was written: an object
with exactly the members of the message and its mark. -/
theorem received_frames_are_calls_and_answers (actions : List Action) (c : Connection)
    (hrun : ({} : Connection).run? actions = some c)
    (hwhole : ({} : Connection).cutShort actions = [])
    (hfits : ∀ value ∈ c.written, (Frame.body value).length < Frame.sizeLimit) :
    ∃ sent : List Outgoing, c.written = sent.map Outgoing.toJson ∧
      sent.filter Outgoing.isCall <+: ({} : Connection).accepted actions ∧
      List.Forall₂ IsAnswerTo (({} : Connection).replied actions)
        (sent.filter Outgoing.isAnswer ++ c.writing?.toList.filter Outgoing.isAnswer) ∧
      Frame.readAll (c.written.flatMap Frame.encode) = Frame.takings c.written ∧
      ∀ message ∈ sent, message.IsLegible → ∃ value,
        Frame.decodeBody? (Frame.body message.toJson) = some value ∧
          value.HasExactly (("jsonrpc", .str "2.0") :: message.members) := by
  obtain ⟨sent, hsent⟩ := exists_sent hrun
  have hanswers := hsent.answers
  have hcut : (({} : Connection).posts actions).filterMap Post.cut? = [] := hwhole
  rw [hcut, List.filter_nil, List.append_nil] at hanswers
  refine ⟨sent, hsent.written, hsent.inOrder, ?_, ?_, ?_⟩
  · have hwriting : c.mail.writing? = c.writing? := rfl
    rw [← hwriting, hanswers, replied, List.forall₂_map_right_iff]
    exact List.forall₂_same.mpr fun request _ => answers_answerFor request
  · exact Frame.readUpTo_frames hfits (Nat.lt_succ_self _)
  · intro message hmessage hlegible
    exact ⟨_, Frame.decodeBody?_body (legible_of_written hsent hmessage hlegible),
      message.hasExactly_marked⟩

/-- A request is answered between two calls, and the second call waits behind the answer. -/
theorem frames_of_an_answer_between_calls :
    let asked : Json := .obj [("id", .str "a"), ("method", .str "workspace/configuration"),
      ("params", .obj [("items", .arr [.null, .null])])]
    let actions : List Action := [.start, .request "hover" (.str "here") 50, .write,
      .receive (Frame.encode asked), .read, .finish, .handle, .notify ⟨"exit", .null⟩, .finish,
      .write, .finish]
    ∃ c : Connection, ({} : Connection).run? actions = some c ∧
      ({} : Connection).cutShort actions = [] ∧
      (∀ value ∈ c.written, (Frame.body value).length < Frame.sizeLimit) ∧
      c.written.length = 3 ∧
      ∃ sent : List Outgoing, c.written = sent.map Outgoing.toJson ∧
        sent.filter Outgoing.isCall <+: ({} : Connection).accepted actions ∧
        List.Forall₂ IsAnswerTo (({} : Connection).replied actions)
          (sent.filter Outgoing.isAnswer ++ c.writing?.toList.filter Outgoing.isAnswer) ∧
        Frame.readAll (c.written.flatMap Frame.encode) = Frame.takings c.written ∧
        ∀ message ∈ sent, message.IsLegible → ∃ value,
          Frame.decodeBody? (Frame.body message.toJson) = some value ∧
            value.HasExactly (("jsonrpc", .str "2.0") :: message.members) := by
  intro asked actions
  have hsizes : (({} : Connection).run? actions).map
      (fun c => c.written.map fun value => (Frame.body value).length) = some [57, 47, 33] := by
    decide +kernel
  obtain ⟨c, hrun, hlengths⟩ := Option.map_eq_some_iff.mp hsizes
  have hwhole : ({} : Connection).cutShort actions = [] := by
    rw [← List.length_eq_zero_iff]
    decide +kernel
  have hfits : ∀ value ∈ c.written, (Frame.body value).length < Frame.sizeLimit := by
    intro value hvalue
    have hlength := List.mem_map_of_mem (f := fun value => (Frame.body value).length) hvalue
    rw [hlengths] at hlength
    have hall : ∀ n ∈ [57, 47, 33], n < Frame.sizeLimit := by decide
    exact hall _ hlength
  have hthree : c.written.length = 3 := by
    have hcount := congrArg List.length hlengths
    rwa [List.length_map] at hcount
  exact ⟨c, hrun, hwhole, hfits, hthree,
    received_frames_are_calls_and_answers actions c hrun hwhole hfits⟩

/-- Arrays one inside the other, around a null. -/
def nested : Nat → Json
  | 0 => .null
  | depth + 1 => .arr [nested depth]

/-- A notification is handed in and written. -/
def notifyAndWrite (params : Json) : List Action :=
  [.start, .notify ⟨"scale", params⟩, .write, .finish]

/-- The frame of a notification with these parameters is written whole, and does not read back as
what was handed in. -/
def IsReadOtherwise (params : Json) : Prop :=
  ∃ c : Connection, ({} : Connection).run? (notifyAndWrite params) = some c ∧
    ({} : Connection).cutShort (notifyAndWrite params) = [] ∧
    ({} : Connection).accepted (notifyAndWrite params) = [.notification ⟨"scale", params⟩] ∧
    c.written = [Notification.toJson ⟨"scale", params⟩] ∧
    Frame.readAll (c.written.flatMap Frame.encode) ≠ Frame.readings c.written

/-- The frame of a message that is read back as it was written. -/
theorem decodeBody?_of_readings {value : Json} (hfits : (Frame.body value).length < Frame.sizeLimit)
    (h : Frame.readAll ([value].flatMap Frame.encode) = Frame.readings [value]) :
    Frame.decodeBody? (Frame.body value) = some (Frame.marked value) := by
  have hread : Frame.readAll ([value].flatMap Frame.encode) = Frame.takings [value] :=
    Frame.readUpTo_frames (List.forall_mem_singleton.mpr hfits) (Nat.lt_succ_self _)
  rw [hread] at h
  have hfirst : Frame.taken (Frame.body value) [] = .message (Frame.marked value) [] :=
    (List.cons.inj h).1
  unfold Frame.taken at hfirst
  split at hfirst
  · rename_i found hfound
    cases hfirst
    exact hfound
  · cases hfirst

/-- What is handed in is not what the body of its frame holds for a reader. -/
theorem isReadOtherwise_of_body {params : Json}
    (hfits : (Frame.body (Notification.toJson ⟨"scale", params⟩)).length < Frame.sizeLimit)
    (hother : Frame.decodeBody? (Frame.body (Notification.toJson ⟨"scale", params⟩)) ≠
      some (Frame.marked (Notification.toJson ⟨"scale", params⟩))) : IsReadOtherwise params :=
  ⟨_, rfl, rfl, rfl, rfl, fun hread => hother (decodeBody?_of_readings hfits hread)⟩

/-- The double that is written as `7.387900000000001e-20` is read as the next greater one. -/
theorem decodeBody?_of_double :
    let message := Notification.toJson ⟨"scale", .obj [("factor", .num (.float 4320586070214722281))]⟩
    (Frame.body message).length < Frame.sizeLimit ∧
      Frame.decodeBody? (Frame.body message) ≠ some (Frame.marked message) := by
  intro message
  have hnumbers : (Frame.body message).length < Frame.sizeLimit ∧
      (Frame.decodeBody? (Frame.body message)).map Json.numbers ≠
        some (Frame.marked message).numbers := by
    decide +kernel
  exact ⟨hnumbers.1, fun hdecode => hnumbers.2 (by rw [hdecode, Option.map_some])⟩

/-- A value inside more brackets than a message may have is not read at all. -/
theorem decodeBody?_of_nested :
    let message := Notification.toJson ⟨"scale", nested 127⟩
    (Frame.body message).length < Frame.sizeLimit ∧
      Frame.decodeBody? (Frame.body message) ≠ some (Frame.marked message) := by
  intro message
  have hplain : (Frame.marked message).numbers = [] := by decide +kernel
  have hread : Json.parse? (Frame.marked message).compact =
      Json.ofTokens? Json.depthLimit (Frame.marked message).tokens :=
    Json.parse?_tokens (by simp [hplain, Json.AreReadBack])
  have htokens : (Json.ofTokens? Json.depthLimit (Frame.marked message).tokens).isNone := by
    decide +kernel
  refine ⟨by decide +kernel, ?_⟩
  rw [Frame.decodeBody?, Frame.body, Text.ofBytes?_bytes, Option.bind_some, hread,
    Option.isNone_iff_eq_none.mp htokens]
  simp

/-- A double that is read as its neighbour, and a value that is nested too deep. -/
theorem frames_that_do_not_read_back :
    IsReadOtherwise (.obj [("factor", .num (.float 4320586070214722281))]) ∧
      IsReadOtherwise (nested 127) :=
  ⟨isReadOtherwise_of_body decodeBody?_of_double.1 decodeBody?_of_double.2,
    isReadOtherwise_of_body decodeBody?_of_nested.1 decodeBody?_of_nested.2⟩

end Connection
end LanguageClient
