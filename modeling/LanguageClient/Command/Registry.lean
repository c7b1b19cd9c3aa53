/-!
# Named commands

The host invokes commands by name. A name is registered once and for all.

* `CommandError` — why a registration or an invocation fails, with its wording.
* `Registry` — handlers by name.
* `Registry.register`, `Registry.find?`, `Registry.ids` — add, look up, list.
-/

namespace LanguageClient

/-- A failure around a named command. -/
inductive CommandError where
  /-- The name is taken. -/
  | alreadyRegistered (id : String)
  /-- The name is not registered. -/
  | unknown (id : String)
  /-- The command ran and failed. -/
  | failed (id reason : String)
  deriving DecidableEq, Repr

namespace CommandError

/-- The wording of a failure. -/
def message : CommandError → String
  | alreadyRegistered id => "Command already registered: " ++ id
  | unknown id => "Unknown command: " ++ id
  | failed id reason => "Command " ++ id ++ " failed: " ++ reason

end CommandError

/-- Handlers by name, in the order of their registration. -/
structure Registry (α : Type) where
  entries : List (String × α) := []

namespace Registry

variable {α : Type}

/-- The handler of a name. -/
def find? (registry : Registry α) (id : String) : Option α := registry.entries.lookup id

/-- Whether a name is registered. -/
def contains (registry : Registry α) (id : String) : Bool := (registry.find? id).isSome

/-- Registers a handler, unless its name is taken. -/
def register (registry : Registry α) (id : String) (handler : α) :
    Except CommandError (Registry α) :=
  if registry.contains id then .error (.alreadyRegistered id)
  else .ok ⟨registry.entries ++ [(id, handler)]⟩

/-- The registered names in increasing order. -/
def ids (registry : Registry α) : List String :=
  (registry.entries.map Prod.fst).mergeSort fun a b => a ≤ b

/-- The handler of a name, or the error of invoking it. -/
def resolve (registry : Registry α) (id : String) : Except CommandError α :=
  match registry.find? id with
  | some handler => .ok handler
  | none => .error (.unknown id)

end Registry

end LanguageClient
