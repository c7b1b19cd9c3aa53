import LanguageClient.VirtualDocument.Protocol

/-!
# Notification handlers

Every method has at most one handler; a later registration replaces an earlier one. A handler reads
parameters of one shape and ignores all others.

* `Router` — handlers by method.
* `ParamShape` — the shapes that an observer may ask for, and `ParamShape.read?`.
* `levelLabel`, `LogEntry` — a message that the server logs or shows.
-/

namespace LanguageClient

open Json (Field fields? required?)

/-- Handlers by method, each method once. -/
structure Router (α : Type) where
  entries : List (String × α) := []

namespace Router

variable {α : Type}

/-- Makes a handler the one of a method. -/
def register (router : Router α) (method : String) (handler : α) : Router α :=
  ⟨(method, handler) :: router.entries.filter fun entry => entry.1 ≠ method⟩

/-- The handler of a method. -/
def find? (router : Router α) (method : String) : Option α := router.entries.lookup method

/-- Whether a method has a handler. -/
def isRegistered (router : Router α) (method : String) : Bool := (router.find? method).isSome

end Router

/-- A shape of parameters. -/
inductive ParamShape where
  | string
  | integer
  | boolean
  | strings
  | optionalString
  | openWebsite
  | showVirtualFile
  | value
  deriving DecidableEq, Repr

/-- What an observer notes of parameters of its shape. -/
inductive Observation where
  /-- The value read. -/
  | read (value : Json)
  /-- The text of any value. -/
  | text (value : Json)

namespace ParamShape

/-- Reads parameters of a shape; none when they have another one. -/
def read? (params : Json) : ParamShape → Option Observation
  | string => params.asString?.map fun s => .read (.str s)
  | integer => params.asInt64?.map fun n => .read (.ofInt n)
  | boolean => params.asBool?.map fun b => .read (.bool b)
  | strings => params.asStrings?.map fun items => .read (.arr (items.map .str))
  | optionalString => (Json.optional? Json.asString? (some params)).map fun s => .read (.ofText? s)
  | openWebsite => (OpenWebsite.url? params).map fun url => .read (.ofText? url)
  | showVirtualFile => (VirtualFileUpdate.ofJson? params).map fun update =>
      .read (.arr [.str update.uri, .str update.content, .str update.sourceMap])
  | value => some (.text params)

end ParamShape

/-- The label of a message level: the levels one to three have names, all others are log
messages. -/
def levelLabel (level : Int) : String :=
  if level = 1 then "Error" else if level = 2 then "Warn" else if level = 3 then "Info" else "Log"

/-- A message that the server logs or shows. -/
structure LogEntry where
  level : Int
  message : String

namespace LogEntry

/-- The fields of a message. -/
def fields : List Field := [⟨"type", .required⟩, ⟨"message", .required⟩]

/-- The message that some parameters write; the level fits a signed word of 32 bits. -/
def ofJson? (params : Json) : Option LogEntry :=
  match fields? fields params with
  | some [level, message] => do
      let level ← required? Json.asInt32? level
      let message ← required? Json.asString? message
      some ⟨level, message⟩
  | _ => none

/-- The line that a message adds to the output channel. -/
def line (entry : LogEntry) : String := "[" ++ levelLabel entry.level ++ "] " ++ entry.message

end LogEntry

end LanguageClient
