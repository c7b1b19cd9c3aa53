import LanguageClient.Json.NumberText
import LanguageClient.Text.Quoted

/-!
# Messages between client and server

Requests carry an identifier that their response repeats; notifications carry none.

* `RequestId`, `Request`, `Notification`, `Response`, `ResponseError` — the messages.
* `RequestId.display`, `ResponseError.display` — their texts for display.
* `Response.outcome` — what a response brings its request.
-/

namespace LanguageClient

/-- The identifier of a request: a number that fits a signed word, or a text. -/
inductive RequestId where
  | number (value : Int)
  | text (value : String)
  deriving DecidableEq, Repr

/-- The identifier for display: a number as it is, a text in quotes. -/
def RequestId.display : RequestId → String
  | number n => String.ofList (Number.intText n)
  | text s => Text.quote s

/-- The error of a failed response. -/
structure ResponseError where
  /-- The kind of failure. -/
  code : Int
  /-- What went wrong. -/
  message : String
  /-- Further information; never null. -/
  data : Option Json := none

namespace ResponseError

/-- The code for a method that the receiver does not implement. -/
def methodNotFoundCode : Int := -32601

/-- The error for a method that the receiver does not implement. -/
def methodNotFound (method : String) : ResponseError :=
  ⟨methodNotFoundCode, "method not found: " ++ method, none⟩

/-- The error for display. -/
def display (e : ResponseError) : String :=
  e.message ++ " (code " ++ String.ofList (Number.intText e.code) ++ ")"

end ResponseError

/-- A message that asks for a response. -/
structure Request where
  id : RequestId
  method : String
  /-- Null when there are none. -/
  params : Json

/-- A message that asks for nothing. -/
structure Notification where
  method : String
  /-- Null when there are none. -/
  params : Json

/-- The answer to a request. -/
structure Response where
  id : RequestId
  result : Option Json
  error : Option ResponseError

/-- What a response brings its request: its error if it has one, else its result, null if that is
missing. -/
def Response.outcome (response : Response) : Except ResponseError Json :=
  match response.error with
  | some e => .error e
  | none => .ok (response.result.getD .null)

end LanguageClient
