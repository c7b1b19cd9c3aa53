import LanguageClient.Message.Written

/-!
# Received messages

* `Inbound.classify?` — a received value as the message it is: by whether it has an identifier
  other than null and whether it has a method.
-/

namespace LanguageClient

/-- A received message. -/
inductive Inbound where
  | response (message : Response)
  | notification (message : Notification)
  | request (message : Request)

namespace Inbound

/-- Whether a value has an identifier other than null. -/
def hasId (value : Json) : Bool :=
  match value.get? "id" with
  | some id => !id.isNull
  | none => false

/-- Whether a value has a method, whatever it is. -/
def hasMethod (value : Json) : Bool := (value.get? "method").isSome

/-- The message that a received value is: a request with identifier and method, a notification
with a method alone, else a response. -/
def classify? (value : Json) : Option Inbound :=
  if hasMethod value then
    if hasId value then (Request.ofJson? value).map request
    else (Notification.ofJson? value).map notification
  else (Response.ofJson? value).map response

/-- The message as a value. -/
def toJson : Inbound → Json
  | response message => message.toJson
  | notification message => message.toJson
  | request message => message.toJson

/-- The members of the message, in the order of its fields. -/
def members : Inbound → List (String × Json)
  | response message => message.members
  | notification message => message.members
  | request message => message.members

end Inbound

end LanguageClient
