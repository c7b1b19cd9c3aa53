import LanguageClient.Frame.Header
import LanguageClient.Json.Parser
import LanguageClient.Json.Printer

/-!
# Framed messages

A message is written as a header with the size of its body, an empty line, and the body: the value
without blanks. An object is marked as a message by the member `jsonrpc`.

Reading takes one message off the front of a stream. What it answers depends on whether the stream
has ended: before that, a message that is not yet complete is `Reading.incomplete`.

* `Frame.encode` — the bytes of a message.
* `Frame.read` — the next message of a stream, or why there is none.
* `Frame.readAll` — every message of a stream that has ended.

Blank lines in front of the header are skipped; after the first length they end it. Of several
lengths the last one holds. A body that is no value is left out whole, so that the stream stays in
step. There is memory for every body below `Frame.sizeLimit`; what becomes of a machine that runs out
of it is not described.
-/

namespace LanguageClient
namespace Frame

/-! ### Writing -/

/-- The value with the mark of a message: an object gets the version member. -/
def marked : Json → Json
  | .obj members => .obj (Json.insertMember "jsonrpc" (.str "2.0") members)
  | value => value

/-- The lines in front of a body of `size` bytes. -/
def header (size : Nat) : String :=
  "Content-Length: " ++ String.ofList (Nat.toDigits 10 size) ++ "\r\n\r\n"

/-- The body of a message. -/
def body (value : Json) : List UInt8 := Text.bytes (marked value).compact

/-- The bytes of a message. -/
def encode (value : Json) : List UInt8 :=
  Text.bytes (header (body value).length) ++ body value

/-! ### Reading -/

/-- What the front of a stream holds. -/
inductive Reading where
  /-- A message, and what follows it. -/
  | message (value : Json) (rest : List UInt8)
  /-- A complete body that is no value, and what follows it. -/
  | invalid (rest : List UInt8)
  /-- Nothing: the stream ended between two messages. -/
  | finished
  /-- No message, and none that could be found after it. -/
  | failed (error : SessionError)
  /-- A length for which no memory can be set aside. -/
  | tooLarge
  /-- The beginning of a message. -/
  | incomplete

/-- The size from which on no memory can be set aside for a body, on any machine of 64 bits.  Below
it memory is taken as sufficient. -/
def sizeLimit : Nat := 0x8000000000000000

/-- The value that a body writes. -/
def decodeBody? (bytes : List UInt8) : Option Json := (Text.ofBytes? bytes).bind Json.parse?

/-- Reads a body of `size` bytes. -/
def readBody (ended : Bool) (size : Nat) (input : List UInt8) : Reading :=
  if sizeLimit ≤ size then .tooLarge
  else if input.length < size then
    if ended then .failed (.stream .endsEarly) else .incomplete
  else match decodeBody? (input.take size) with
    | some value => .message value (input.drop size)
    | none => .invalid (input.drop size)

/-- What a stream that ended between two lines holds; `size` is the length announced so far. -/
def atEnd : Option Nat → Reading
  | some _ => .failed (.protocol .headerCut)
  | none => .finished

/-- What the last line of a stream says when no line feed ends it. -/
def readLastLine (size : Option Nat) (line : List UInt8) : Reading :=
  match HeaderLine.ofBytes line with
  | .error e => .failed e
  | .ok .blank => match size with
      | some size => readBody true size []
      | none => .finished
  | .ok (.contentLength size) => atEnd (some size)
  | .ok .other => atEnd size

/-- Reads a message in whose header `size` is the length announced so far. -/
def readFrom (ended : Bool) (size : Option Nat) (input : List UInt8) : Reading :=
  match _ : splitLine? input with
  | none =>
      if !ended then .incomplete
      else if input.isEmpty then atEnd size
      else readLastLine size input
  | some (line, rest) =>
      match HeaderLine.ofBytes line with
      | .error e => .failed e
      | .ok .blank => match size with
          | some size => readBody ended size rest
          | none => readFrom ended none rest
      | .ok (.contentLength size) => readFrom ended (some size) rest
      | .ok .other => readFrom ended size rest
termination_by input.length
decreasing_by all_goals exact length_lt_of_splitLine? (by assumption)

/-- Reads the next message of a stream; `ended` tells that no further bytes can follow. -/
def read (ended : Bool) (input : List UInt8) : Reading := readFrom ended none input

/-- The bytes that are left after a reading that took something off the stream. -/
def Reading.rest? : Reading → Option (List UInt8)
  | .message _ rest => some rest
  | .invalid rest => some rest
  | _ => none

/-- The readings of a stream that has ended, at most `fuel` of them; the last one takes nothing. -/
def readUpTo : Nat → List UInt8 → List Reading
  | 0, _ => []
  | fuel + 1, input =>
      let reading := read true input
      match reading.rest? with
      | some rest => reading :: readUpTo fuel rest
      | none => [reading]

/-- The readings of a stream that has ended. Each but the last takes at least a byte, so the length
of the stream bounds their number. -/
def readAll (input : List UInt8) : List Reading := readUpTo (input.length + 1) input

end Frame
end LanguageClient
