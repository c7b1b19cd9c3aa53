import LanguageClient.Message.Inbound
import LanguageClient.Proofs.Json.Records
import LanguageClient.Proofs.Message.Members

/-!
# A written message is classified as what it was

Members that are null or absent are left out when a message is written, and the mark of a message is
put among the others; what is read of it is the message all the same.  A response is the only message
that could hold something that its written form does not show: a result or further information that
is there and null.  No value is read as such a response.

* `Request.ofJson?_eq_some_iff`, `Response.ofJson?_eq_some_iff`,
  `ResponseError.ofJson?_eq_some_iff` — messages are read field by field.
* `Inbound.IsSound` — the messages that can be received.
* `Inbound.Holds`, `Inbound.classify?_of_holds` — a value with the members of a message is classified
  as that message.
* **`Inbound.classified_as_written`** — classification undoes writing.
-/

namespace LanguageClient

open Json (required? optional? defaulted? lookup)

variable {value : Json}

/-! ### Reading field by field -/

theorem Request.ofJson?_eq_some_iff {r : Request} :
    Request.ofJson? value = some r ↔ value.MayWrite 3 ∧
      (value.field? "id" 0).bind RequestId.ofJson? = some r.id ∧
      (value.field? "method" 1).bind Json.asString? = some r.method ∧
      defaulted? .null some (value.field? "params" 2) = some r.params := by
  rw [← Json.required?_eq_bind, ← Json.required?_eq_bind]
  obtain ⟨id, method, params⟩ := r
  exact Json.readThree_iff Request.mk (required? RequestId.ofJson?) (required? Json.asString?)
    (defaulted? .null some) Request.mk.inj (by decide) (fun _ => rfl) (fun _ => rfl) (by nofun)

theorem Response.ofJson?_eq_some_iff {r : Response} :
    Response.ofJson? value = some r ↔ value.MayWrite 3 ∧
      (value.field? "id" 0).bind RequestId.ofJson? = some r.id ∧
      optional? some (value.field? "result" 1) = some r.result ∧
      optional? ResponseError.ofJson? (value.field? "error" 2) = some r.error := by
  rw [← Json.required?_eq_bind]
  obtain ⟨id, result, error⟩ := r
  exact Json.readThree_iff Response.mk (required? RequestId.ofJson?) (optional? some)
    (optional? ResponseError.ofJson?) Response.mk.inj (by decide) (fun _ => rfl) (by nofun)
    (by nofun)

theorem ResponseError.ofJson?_eq_some_iff {e : ResponseError} :
    ResponseError.ofJson? value = some e ↔ value.MayWrite 3 ∧
      (value.field? "code" 0).bind Json.asInt64? = some e.code ∧
      (value.field? "message" 1).bind Json.asString? = some e.message ∧
      optional? some (value.field? "data" 2) = some e.data := by
  rw [← Json.required?_eq_bind, ← Json.required?_eq_bind]
  obtain ⟨code, message, data⟩ := e
  exact Json.readThree_iff ResponseError.mk (required? Json.asInt64?) (required? Json.asString?)
    (optional? some) ResponseError.mk.inj (by decide) (fun _ => rfl) (fun _ => rfl) (by nofun)

/-! ### What can be received -/

/-- The integer fits a signed word. -/
def FitsSigned (n : Int) : Prop := -0x8000000000000000 ≤ n ∧ n ≤ 0x7FFFFFFFFFFFFFFF

theorem Json.asInt64?_eq_some_iff {n : Int} :
    value.asInt64? = some n ↔ value = .ofInt n ∧ FitsSigned n := by
  unfold Json.asInt64? Json.asIntIn? Json.asInt? Json.ofInt FitsSigned
  cases value with
  | num number =>
      cases number with
      | int m =>
          dsimp only
          split <;> grind
      | float bits => simp
  | _ => simp

/-- Nothing that may be null is read as null. -/
theorem ne_null_of_optional? {value? read : Option Json} (h : optional? some value? = some read) :
    read ≠ some .null := by
  rintro rfl
  obtain ⟨value, -, hne, hvalue⟩ := Json.optional?_eq_some_some_iff.mp h
  cases hvalue
  exact hne rfl

theorem Json.optional?_some_eq_of_ne {value? : Option Json} (h : value? ≠ some .null) :
    optional? some value? = some value? := by
  rcases value? with _ | value
  · rfl
  · cases value with
    | null => exact absurd rfl h
    | _ => rfl

/-- A number among identifiers fits a signed word. -/
def RequestId.IsSound : RequestId → Prop
  | number n => FitsSigned n
  | text _ => True

/-- The code of an error fits a signed word, and there is no further information that is null. -/
structure ResponseError.IsSound (e : ResponseError) : Prop where
  code : FitsSigned e.code
  data : e.data ≠ some .null

/-- A response has no result that is there and null. -/
structure Response.IsSound (r : Response) : Prop where
  id : r.id.IsSound
  result : r.result ≠ some .null
  error : ∀ e, r.error = some e → e.IsSound

namespace RequestId

theorem ofJson?_toJson {id : RequestId} (h : id.IsSound) : ofJson? id.toJson = some id := by
  cases id with
  | number n => rw [ofJson?, toJson, Json.asInt64?_eq_some_iff.mpr ⟨rfl, h⟩]
  | text s => rfl

theorem isSound_of_ofJson? {id : RequestId} (h : ofJson? value = some id) : id.IsSound := by
  unfold ofJson? at h
  split at h
  · rename_i n hn
    cases h
    exact (Json.asInt64?_eq_some_iff.mp hn).2
  · obtain ⟨s, -, rfl⟩ := Option.map_eq_some_iff.mp h
    trivial

/-- No identifier is null. -/
theorem isNull_toJson (id : RequestId) : id.toJson.isNull = false := by
  cases id <;> rfl

end RequestId

namespace ResponseError

theorem names_members (e : ResponseError) : (e.members.map Prod.fst).Nodup := by
  obtain ⟨code, message, data⟩ := e
  cases data <;> simp [members]

theorem ofJson?_toJson {e : ResponseError} (h : e.IsSound) : ofJson? e.toJson = some e := by
  have hfield : ∀ name place, e.toJson.field? name place = lookup name e.members :=
    fun name _ => Json.get?_ofMembers e.names_members name
  rw [ofJson?_eq_some_iff, hfield, hfield, hfield]
  obtain ⟨code, message, data⟩ := e
  refine ⟨trivial, ?_, ?_, ?_⟩
  · simpa [members, lookup] using Json.asInt64?_eq_some_iff.mpr ⟨rfl, h.code⟩
  · simp [members, lookup, Json.asString?]
  · have hdata : lookup "data" (members ⟨code, message, data⟩) = data := by
      cases data <;> simp [members, lookup]
    rw [hdata, Json.optional?_some_eq_of_ne h.data]

theorem isSound_of_ofJson? {e : ResponseError} (h : ofJson? value = some e) : e.IsSound := by
  obtain ⟨-, hcode, -, hdata⟩ := ofJson?_eq_some_iff.mp h
  obtain ⟨code, -, hcode⟩ := Option.bind_eq_some_iff.mp hcode
  exact ⟨(Json.asInt64?_eq_some_iff.mp hcode).2, ne_null_of_optional? hdata⟩

end ResponseError

/-! ### Written and classified -/

namespace Inbound

/-- A message as its type allows it: its numbers fit signed words, and nothing of a response is there
and null that would be left out. -/
def IsSound : Inbound → Prop
  | response message => message.IsSound
  | notification _ => True
  | request message => message.id.IsSound

/-- The members with which a message is written. -/
def written : Inbound → List (String × Json)
  | response message => message.membersWith ResponseError.toJson
  | notification message => message.members
  | request message => message.members

theorem toJson_eq (x : Inbound) : x.toJson = .ofMembers x.written := by
  cases x <;> rfl

theorem names_written (x : Inbound) : (x.written.map Prod.fst).Nodup := by
  cases x with
  | response message =>
      obtain ⟨id, result, error⟩ := message
      cases result <;> cases error <;> simp [written, Response.membersWith]
  | notification message =>
      simp only [written, Notification.members, paramsMember]
      split <;> simp
  | request message =>
      simp only [written, Request.members, paramsMember]
      split <;> simp

/-- The value is an object with the members of a message, whatever its mark. -/
structure Holds (value : Json) (x : Inbound) : Prop where
  object : ∃ members, value = .obj members
  gives : ∀ name, name ≠ "jsonrpc" → value.get? name = lookup name x.written

theorem holds_toJson (x : Inbound) : Holds x.toJson x where
  object := ⟨_, x.toJson_eq⟩
  gives name _ := by rw [toJson_eq, Json.get?_ofMembers x.names_written]

theorem holds_marked (x : Inbound) : Holds (Frame.marked x.toJson) x where
  object := by
    rw [toJson_eq]
    exact ⟨_, rfl⟩
  gives name hname := by
    rw [← (holds_toJson x).gives name hname, toJson_eq]
    change lookup name (Json.insertMember "jsonrpc" (.str "2.0") _) = _
    rw [Json.lookup_insertMember, if_neg hname]
    rfl

/-- Parameters are read as they were, also where they are left out. -/
theorem defaulted?_params (visible : List (String × Json)) (h : lookup "params" visible = none)
    (params : Json) :
    defaulted? .null some (lookup "params" (visible ++ paramsMember params)) = some params := by
  have hbehind : lookup "params" (visible ++ paramsMember params) =
      lookup "params" (paramsMember params) := by
    induction visible with
    | nil => rfl
    | cons member rest ih =>
        rw [lookup] at h
        split at h
        · cases h
        · rename_i hname
          rw [List.cons_append, lookup, if_neg hname, ih h]
  rw [hbehind, paramsMember]
  cases params <;> rfl

theorem ofJson?_response {r : Response} (hr : r.IsSound)
    (h : ∀ name place, name ≠ "jsonrpc" →
      value.field? name place = lookup name (written (response r)))
    (hmay : value.MayWrite 3) : Response.ofJson? value = some r := by
  rw [Response.ofJson?_eq_some_iff, h "id" 0 (by decide), h "result" 1 (by decide),
    h "error" 2 (by decide)]
  obtain ⟨id, result, error⟩ := r
  have hid : lookup "id" (written (response ⟨id, result, error⟩)) = some id.toJson := rfl
  have hresult : lookup "result" (written (response ⟨id, result, error⟩)) = result := by
    cases result <;> cases error <;> rfl
  have herror : lookup "error" (written (response ⟨id, result, error⟩)) =
      error.map ResponseError.toJson := by
    cases result <;> cases error <;> rfl
  rw [hid, hresult, herror]
  refine ⟨hmay, RequestId.ofJson?_toJson hr.id, Json.optional?_some_eq_of_ne hr.result, ?_⟩
  cases error with
  | none => rfl
  | some e =>
      have hread := ResponseError.ofJson?_toJson (hr.error e rfl)
      change (ResponseError.ofJson? e.toJson).map some = some (some e)
      rw [hread]
      rfl

theorem ofJson?_request {r : Request} (hr : r.id.IsSound)
    (h : ∀ name place, name ≠ "jsonrpc" →
      value.field? name place = lookup name (written (request r)))
    (hmay : value.MayWrite 3) : Request.ofJson? value = some r := by
  rw [Request.ofJson?_eq_some_iff, h "id" 0 (by decide), h "method" 1 (by decide),
    h "params" 2 (by decide)]
  exact ⟨hmay, RequestId.ofJson?_toJson hr, rfl,
    defaulted?_params [("id", r.id.toJson), ("method", .str r.method)] rfl r.params⟩

theorem ofJson?_notification {n : Notification}
    (h : ∀ name place, name ≠ "jsonrpc" →
      value.field? name place = lookup name (written (notification n)))
    (hmay : value.MayWrite 2) : Notification.ofJson? value = some n := by
  have hmethod : value.field? "method" 0 = some (.str n.method) := h "method" 0 (by decide)
  have hparams : defaulted? .null some (value.field? "params" 1) = some n.params := by
    rw [h "params" 1 (by decide)]
    exact defaulted?_params [("method", .str n.method)] rfl n.params
  have hrequired : value.GivesRequired 0 Notification.fields :=
    Json.givesRequired_cons.mpr ⟨fun _ => Option.isSome_of_mem hmethod,
      Json.givesRequired_cons.mpr ⟨by nofun, Json.givesRequired_nil value 2⟩⟩
  have hfields : Json.fields? Notification.fields value =
      some [value.field? "method" 0, value.field? "params" 1] :=
    (Json.fields?_eq_some_iff (by decide)).mpr ⟨hmay, hrequired, rfl⟩
  simp [Notification.ofJson?, hfields, hmethod, hparams, required?, Json.asString?]

/-- A value with the members of a message is classified as that message. -/
theorem classify?_of_holds {x : Inbound} (hx : x.IsSound) (h : Holds value x) :
    classify? value = some x := by
  obtain ⟨members, rfl⟩ := h.object
  -- Two members tell the kinds of messages apart, and neither is the mark.
  have hid := h.gives "id" (by decide)
  have hmethod := h.gives "method" (by decide)
  have hfield : ∀ name place, name ≠ "jsonrpc" →
      (Json.obj members).field? name place = lookup name x.written :=
    fun name _ hname => h.gives name hname
  cases x with
  | response r =>
      have hnone : lookup "method" (written (response r)) = none := by
        obtain ⟨id, result, error⟩ := r
        cases result <;> cases error <;> rfl
      rw [classify?, hasMethod, hmethod, hnone, ofJson?_response hx hfield trivial]
      rfl
  | notification n =>
      have hnone : lookup "id" (written (notification n)) = none := by
        change lookup "id" (("method", _) :: paramsMember n.params) = none
        unfold paramsMember
        split <;> rfl
      have hname : lookup "method" (written (notification n)) = some (.str n.method) := rfl
      rw [classify?, hasMethod, hmethod, hasId, hid, hnone, hname,
        ofJson?_notification hfield trivial]
      rfl
  | request r =>
      have hsome : lookup "id" (written (request r)) = some r.id.toJson := rfl
      have hname : lookup "method" (written (request r)) = some (.str r.method) := rfl
      rw [classify?, hasMethod, hmethod, hasId, hid, hsome, hname, ofJson?_request hx hfield trivial]
      simp [RequestId.isNull_toJson]

/-- What is received is a message as its type allows it. -/
theorem isSound_of_classify? {x : Inbound} (h : classify? value = some x) : x.IsSound := by
  unfold classify? at h
  split at h
  · split at h
    · obtain ⟨r, hr, rfl⟩ := Option.map_eq_some_iff.mp h
      obtain ⟨-, hid, -, -⟩ := Request.ofJson?_eq_some_iff.mp hr
      obtain ⟨id, -, hid⟩ := Option.bind_eq_some_iff.mp hid
      exact RequestId.isSound_of_ofJson? hid
    · obtain ⟨n, -, rfl⟩ := Option.map_eq_some_iff.mp h
      trivial
  · obtain ⟨r, hr, rfl⟩ := Option.map_eq_some_iff.mp h
    obtain ⟨-, hid, hresult, herror⟩ := Response.ofJson?_eq_some_iff.mp hr
    obtain ⟨id, -, hid⟩ := Option.bind_eq_some_iff.mp hid
    refine ⟨RequestId.isSound_of_ofJson? hid, ne_null_of_optional? hresult, ?_⟩
    intro e he
    rw [he] at herror
    obtain ⟨written, -, -, he⟩ := Json.optional?_eq_some_some_iff.mp herror
    exact ResponseError.isSound_of_ofJson? he

/-- **Classification undoes writing.**  A message whose numbers are integers and which is not nested
too deep is read from the bytes that are written of it, whatever follows them, and is classified as
the message that it was.  Whatever is classified as a message, an array among others, is such a
message, and its written form is classified as the same one. -/
theorem classified_as_written :
    (∀ x : Inbound, x.IsSound → Frame.IsWritable x.toJson → ∀ (ended : Bool) (rest : List UInt8),
      ∃ value, Frame.read ended (Frame.encode x.toJson ++ rest) = .message value rest ∧
        classify? value = some x) ∧
      ∀ (value : Json) (x : Inbound), classify? value = some x →
        x.IsSound ∧ classify? x.toJson = some x := by
  constructor
  · intro x hx hwritable ended rest
    refine ⟨Frame.marked x.toJson, ?_, classify?_of_holds hx (holds_marked x)⟩
    rw [Frame.read_encode hwritable.fits, Frame.taken, Frame.decodeBody?_body hwritable.isLegible]
  · intro value x h
    have hx := isSound_of_classify? h
    exact ⟨hx, classify?_of_holds hx (holds_toJson x)⟩

/-- A response with an error that tells more, and an array that is read as a response whose result
is null. -/
theorem failure_is_classified_as_written :
    let failure : Inbound := .response ⟨.number 7, none, some ⟨-32601, "é", some (.arr [.null])⟩⟩
    let empty : Inbound := .response ⟨.number 7, none, none⟩
    failure.IsSound ∧ Frame.IsWritable failure.toJson ∧
      (∃ value, Frame.read false (Frame.encode failure.toJson ++ [0]) = .message value [0] ∧
        classify? value = some failure) ∧
      classify? (.arr [.ofInt 7, .null]) = some empty ∧ classify? empty.toJson = some empty := by
  intro failure empty
  have hsound : failure.IsSound := by
    refine ⟨⟨by decide, by decide⟩, nofun, ?_⟩
    intro e he
    cases he
    exact ⟨⟨by decide, by decide⟩, nofun⟩
  have hwritable : Frame.IsWritable failure.toJson := by
    have hjson : failure.toJson = .obj
        [("error", .obj [("code", .ofInt (-32601)), ("data", .arr [.null]), ("message", .str "é")]),
          ("id", .ofInt 7)] := rfl
    refine ⟨?_, ?_, by decide, by decide⟩
    · rw [hjson]
      refine ⟨?_, ⟨?_, trivial, ⟨trivial, trivial⟩, trivial, trivial⟩, trivial, trivial⟩
      · simpa [Json.IncreasingNames] using (by decide : "error" < "id")
      · simpa [Json.IncreasingNames] using (by decide :
          ("code" < "data" ∧ "code" < "message") ∧ "data" < "message")
    · rw [hjson]
      intro n hn
      have hcases : n = .int (-32601) ∨ n = .int 7 := by
        simpa [Json.numbers, Json.memberNumbers, Json.itemNumbers, Json.ofInt] using hn
      rcases hcases with rfl | rfl <;> exact ⟨_, rfl, by decide, by decide⟩
  have hread : classify? (.arr [.ofInt 7, .null]) = some empty := rfl
  exact ⟨hsound, hwritable, classified_as_written.1 failure hsound hwritable false [0], hread,
    (classified_as_written.2 _ empty hread).2⟩

end Inbound

end LanguageClient
