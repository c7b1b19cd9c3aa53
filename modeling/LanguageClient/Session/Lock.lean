/-!
# The life-cycle lock

Starting and stopping exclude each other. Whoever asks for the lock while it is held waits in line,
and a lock that is given back goes straight to the first in line.

* `Lock.acquire`, `Lock.release`, `Lock.leave` — ask for it, give it back, stop waiting.
-/

namespace LanguageClient

/-- A lock with its holder and the line of those who wait for it. -/
structure Lock where
  holder? : Option Nat := none
  waiting : List Nat := []
  deriving DecidableEq, Repr

namespace Lock

/-- Whether nobody holds the lock. -/
def isFree (lock : Lock) : Bool := lock.holder?.isNone

/-- Takes the lock if it is free, else a place at the end of the line. -/
def acquire (lock : Lock) (task : Nat) : Lock :=
  if lock.isFree then { lock with holder? := some task }
  else { lock with waiting := lock.waiting ++ [task] }

/-- Gives the lock to the first in line. -/
def release (lock : Lock) : Lock where
  holder? := lock.waiting.head?
  waiting := lock.waiting.tail

/-- Gives up the lock or the place in line. -/
def leave (lock : Lock) (task : Nat) : Lock :=
  if lock.holder? = some task then lock.release
  else { lock with waiting := lock.waiting.filter (· ≠ task) }

end Lock

end LanguageClient
