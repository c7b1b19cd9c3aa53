import LanguageClient.Message.Basic
import LanguageClient.Text.Utf8

/-!
# What can go wrong in a session

* `ProtocolFault`, `StreamFault` — why a byte stream carries no further message.
* `SessionError` — every failure of a session, with its wording in `SessionError.message`.
-/

namespace LanguageClient

/-- A breach of the framing rules, or of the rules of a session. -/
inductive ProtocolFault where
  /-- The stream ended after the length of a message but before its body. -/
  | headerCut
  /-- A header line without a colon. -/
  | malformedHeader (line : String)
  /-- A length that is no natural number below the word size. -/
  | invalidLength (text : String)
  /-- Somebody else already receives the notifications of a connection. -/
  | queueTaken
  deriving DecidableEq, Repr

namespace ProtocolFault

/-- The wording of a breach. -/
def message : ProtocolFault → String
  | headerCut => "connection closed inside a message header"
  | malformedHeader line => "malformed header: " ++ line
  | invalidLength text => "invalid Content-Length: " ++ text
  | queueTaken => "notification queue already taken"

end ProtocolFault

/-- A failure to read bytes. -/
inductive StreamFault where
  /-- The stream ended inside a body. -/
  | endsEarly
  /-- A line that is no text, and where it stops to be. -/
  | notText (fault : Text.Utf8Fault)
  deriving DecidableEq, Repr

namespace StreamFault

/-- A natural number in decimal digits. -/
def decimal (n : Nat) : String := String.ofList (Number.natText n)

/-- The wording of a failure to read. -/
def message : StreamFault → String
  | endsEarly => "early eof"
  | notText ⟨index, some size⟩ =>
      "invalid utf-8 sequence of " ++ decimal size ++ " bytes from index " ++ decimal index
  | notText ⟨index, none⟩ => "incomplete utf-8 byte sequence from index " ++ decimal index

end StreamFault

/-- A failure of a session. -/
inductive SessionError where
  /-- The server could not be launched. -/
  | spawn (program reason : String)
  /-- The connection has ended. -/
  | connectionClosed
  /-- A request was not answered in time. -/
  | timeout (method : String)
  /-- A request was answered by an error. -/
  | response (error : ResponseError)
  /-- A body is no value, or a value has not the expected shape. -/
  | invalidMessage
  /-- A breach of the rules. -/
  | protocol (fault : ProtocolFault)
  /-- Bytes could not be read. -/
  | stream (fault : StreamFault)
  /-- There is no session to talk to. -/
  | notRunning
  /-- The session that was awaited failed. -/
  | startFailed (reason : String)

namespace SessionError

/-- The wording of a failure. -/
def message : SessionError → String
  | spawn program reason => "Failed to spawn language server `" ++ program ++ "`: " ++ reason
  | connectionClosed => "Language server connection closed"
  | timeout method => "Request `" ++ method ++ "` timed out"
  | response error => "Language server returned an error: " ++ error.display
  | invalidMessage => "Invalid message from language server: unexpected shape"
  | protocol fault => "Protocol error: " ++ fault.message
  | stream fault => "I/O error: " ++ fault.message
  | notRunning => "No language server session is running"
  | startFailed reason => "Language server failed to start: " ++ reason

end SessionError

end LanguageClient
