import LanguageClient.Json.Record
import LanguageClient.Message.Basic

/-!
# Messages as values

Every message is a record. In its written form members that are null or absent are left out, and the
names are in increasing order.

* `Request.ofJson?`, `Notification.ofJson?`, `Response.ofJson?` — the message that a value writes.
* `Request.toJson`, `Notification.toJson`, `Response.toJson` — the written form of a message.
* `Request.members`, `Notification.members`, `Response.members` — its members in their own order.
-/

namespace LanguageClient

open Json (Field fields? required? optional? defaulted?)

namespace RequestId

/-- The identifier that a value is. -/
def ofJson? (value : Json) : Option RequestId :=
  match value.asInt64? with
  | some n => some (number n)
  | none => value.asString?.map text

/-- The identifier as a value. -/
def toJson : RequestId → Json
  | number n => .ofInt n
  | text s => .str s

end RequestId

namespace ResponseError

/-- The fields of an error. -/
def fields : List Field :=
  [⟨"code", .required⟩, ⟨"message", .required⟩, ⟨"data", .defaulted⟩]

/-- The error that a value writes. -/
def ofJson? (value : Json) : Option ResponseError :=
  match fields? fields value with
  | some [code, message, data] => do
      let code ← required? Json.asInt64? code
      let message ← required? Json.asString? message
      let data ← optional? some data
      some ⟨code, message, data⟩
  | _ => none

/-- The members of an error: code, message, and data if there is any. -/
def members (e : ResponseError) : List (String × Json) :=
  [("code", .ofInt e.code), ("message", .str e.message)] ++
    (e.data.map fun data => ("data", data)).toList

/-- The error as a value. -/
def toJson (e : ResponseError) : Json := .ofMembers e.members

end ResponseError

/-- Parameters as a member; null ones are left out. -/
def paramsMember (params : Json) : List (String × Json) :=
  if params.isNull then [] else [("params", params)]

namespace Request

/-- The fields of a request. -/
def fields : List Field :=
  [⟨"id", .required⟩, ⟨"method", .required⟩, ⟨"params", .defaulted⟩]

/-- The request that a value writes. -/
def ofJson? (value : Json) : Option Request :=
  match fields? fields value with
  | some [id, method, params] => do
      let id ← required? RequestId.ofJson? id
      let method ← required? Json.asString? method
      let params ← defaulted? .null some params
      some ⟨id, method, params⟩
  | _ => none

/-- The members of a request in their own order. -/
def members (request : Request) : List (String × Json) :=
  [("id", request.id.toJson), ("method", .str request.method)] ++ paramsMember request.params

/-- The request as a value. -/
def toJson (request : Request) : Json := .ofMembers request.members

end Request

namespace Notification

/-- The fields of a notification. -/
def fields : List Field := [⟨"method", .required⟩, ⟨"params", .defaulted⟩]

/-- The notification that a value writes. -/
def ofJson? (value : Json) : Option Notification :=
  match fields? fields value with
  | some [method, params] => do
      let method ← required? Json.asString? method
      let params ← defaulted? .null some params
      some ⟨method, params⟩
  | _ => none

/-- The members of a notification in their own order. -/
def members (notification : Notification) : List (String × Json) :=
  ("method", .str notification.method) :: paramsMember notification.params

/-- The notification as a value. -/
def toJson (notification : Notification) : Json := .ofMembers notification.members

end Notification

namespace Response

/-- The fields of a response. -/
def fields : List Field :=
  [⟨"id", .required⟩, ⟨"result", .defaulted⟩, ⟨"error", .defaulted⟩]

/-- The response that a value writes. -/
def ofJson? (value : Json) : Option Response :=
  match fields? fields value with
  | some [id, result, error] => do
      let id ← required? RequestId.ofJson? id
      let result ← optional? some result
      let error ← optional? ResponseError.ofJson? error
      some ⟨id, result, error⟩
  | _ => none

/-- The members of a response in their own order, the error written by `errorValue`. -/
def membersWith (errorValue : ResponseError → Json) (response : Response) :
    List (String × Json) :=
  [("id", response.id.toJson)] ++ (response.result.map fun value => ("result", value)).toList ++
    (response.error.map fun e => ("error", errorValue e)).toList

/-- The members of a response in their own order. -/
def members (response : Response) : List (String × Json) :=
  response.membersWith fun e => .obj e.members

/-- The response as a value. -/
def toJson (response : Response) : Json := .ofMembers (response.membersWith ResponseError.toJson)

end Response

end LanguageClient
