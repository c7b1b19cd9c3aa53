/-!
# The status of a session

Every attempt to start a session has a generation of its own, counted from one. What becomes of it
is published step by step.
-/

namespace LanguageClient

/-- How far a session has come. -/
inductive SessionState where
  | stopped
  | starting
  | ready
  | failed
  deriving DecidableEq, Repr

namespace SessionState

/-- The name of a state. -/
def name : SessionState → String
  | stopped => "stopped"
  | starting => "starting"
  | ready => "ready"
  | failed => "failed"

/-- All states. -/
def all : List SessionState := [stopped, starting, ready, failed]

end SessionState

/-- What is published: a generation and its state. -/
structure Status where
  generation : Nat := 0
  state : SessionState := .stopped
  deriving DecidableEq, Repr

/-- Whether the session of a status can be used. -/
def Status.isReady (status : Status) : Bool := status.state = .ready

end LanguageClient
