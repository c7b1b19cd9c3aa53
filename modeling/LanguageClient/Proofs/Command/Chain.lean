import LanguageClient.Command.Chain
import Mathlib.Data.List.Nodup
import Mathlib.Data.List.Perm.Subperm

/-!
# Where a chain of commands leads

The commands that an invocation reaches, one after the other, are told by the registry alone.
Unless they run in a circle they come to an end: to a command that invokes no further one, or to a
name that is not registered.  An invocation then notes exactly the calls of these commands, in
order, and what it returns is decided by the last of them that fails.

* `Link.Leads` — the commands that are reached from a name, and the name that is missing, if any.
* `Link.Leads.unique`, `Link.Leads.nodup`, `Link.Leads.length_le` — they are determined by the name,
  none is reached twice, and so there are no more than the registry has.
* `Link.blamed` — a failure as it shows through the commands before it.
* **`Link.invokeAll_of_leads`** — what an invocation notes and returns.
-/

namespace LanguageClient
namespace Link

variable {registry : Registry Link} {id : String} {way : List (String × Link)}
  {missing? : Option String}

/-- From a name the links lead through the commands of the way.  At its end stands a command that
invokes no other one, or one that invokes a name that is missing. -/
inductive Leads (registry : Registry Link) : String → List (String × Link) → Option String → Prop
  | missing (id : String) (hnone : registry.find? id = none) : Leads registry id [] (some id)
  | last (id : String) (link : Link) (hfound : registry.find? id = some link)
      (hlast : link.next? = none) : Leads registry id [(id, link)] none
  | next (id other : String) (link : Link) (way : List (String × Link)) (missing? : Option String)
      (hfound : registry.find? id = some link) (hnext : link.next? = some other)
      (hleads : Leads registry other way missing?) :
      Leads registry id ((id, link) :: way) missing?

namespace Leads

theorem unique {way' : List (String × Link)} {missing?' : Option String}
    (h : Leads registry id way missing?) (h' : Leads registry id way' missing?') :
    way = way' ∧ missing? = missing?' := by
  induction h generalizing way' missing?' with
  | missing id hnone =>
      cases h' with
      | missing => exact ⟨rfl, rfl⟩
      | last _ link hfound | next _ _ link _ _ hfound => cases hnone.symm.trans hfound
  | last id link hfound hlast =>
      cases h' with
      | missing _ hnone => cases hnone.symm.trans hfound
      | last _ link' hfound' hlast' =>
          cases hfound.symm.trans hfound'
          exact ⟨rfl, rfl⟩
      | next _ other link' _ _ hfound' hnext =>
          cases hfound.symm.trans hfound'
          cases hlast.symm.trans hnext
  | next id other link way missing? hfound hnext hleads ih =>
      cases h' with
      | missing _ hnone => cases hnone.symm.trans hfound
      | last _ link' hfound' hlast =>
          cases hfound.symm.trans hfound'
          cases hlast.symm.trans hnext
      | next _ other' link' _ _ hfound' hnext' hleads' =>
          cases hfound.symm.trans hfound'
          cases hnext.symm.trans hnext'
          obtain ⟨rfl, rfl⟩ := ih hleads'
          exact ⟨rfl, rfl⟩

/-- From every command on the way the links lead through the rest of it. -/
theorem of_mem (h : Leads registry id way missing?) {command : String × Link}
    (hmem : command ∈ way) : registry.find? command.1 = some command.2 ∧
      ∃ rest, rest.length ≤ way.length ∧ Leads registry command.1 rest missing? := by
  induction h with
  | missing => cases hmem
  | last id link hfound hlast =>
      obtain rfl := List.mem_singleton.mp hmem
      exact ⟨hfound, _, Nat.le_refl _, .last id link hfound hlast⟩
  | next id other link way missing? hfound hnext hleads ih =>
      rcases List.mem_cons.mp hmem with rfl | hlater
      · exact ⟨hfound, _, Nat.le_refl _, .next id other link way missing? hfound hnext hleads⟩
      · obtain ⟨hsame, rest, hlength, hrest⟩ := ih hlater
        exact ⟨hsame, rest, Nat.le_succ_of_le hlength, hrest⟩

/-- No command is reached twice: the links would lead on from it as before, and never to an end. -/
theorem nodup (h : Leads registry id way missing?) : (way.map Prod.fst).Nodup := by
  induction h with
  | missing => exact List.nodup_nil
  | last => exact List.nodup_singleton _
  | next id other link way missing? hfound hnext hleads ih =>
      refine List.nodup_cons.mpr ⟨fun hagain => ?_, ih⟩
      obtain ⟨command, hmem, rfl⟩ := List.mem_map.mp hagain
      obtain ⟨-, rest, hlength, hrest⟩ := hleads.of_mem hmem
      obtain ⟨rfl, -⟩ := hrest.unique (.next _ other link way missing? hfound hnext hleads)
      exact absurd hlength (Nat.not_succ_le_self _)

theorem length_le (h : Leads registry id way missing?) : way.length ≤ registry.entries.length := by
  have hsubset : way.map Prod.fst ⊆ registry.entries.map Prod.fst := by
    intro name hname
    obtain ⟨command, hmem, rfl⟩ := List.mem_map.mp hname
    obtain ⟨before, after, hentries, -⟩ := List.lookup_eq_some_iff.mp (h.of_mem hmem).1
    rw [hentries]
    simp
  simpa using (List.subperm_of_subset h.nodup hsubset).length_le

end Leads

/-! ### Invocations -/

/-- A failure as it shows through the commands before it, each of which was invoked by the one
before. -/
def blamed (before : List (String × Link)) (e : CommandError) : CommandError :=
  before.foldr (fun command e => .failed command.1 e.message) e

/-- What an invocation returns whose way is known. -/
def outcome (missing? : Option String) : List (String × Link) → Except CommandError Unit
  | [] => match missing? with
      | some id => .error (.unknown id)
      | none => .ok ()
  | (id, link) :: way => match outcome missing? way, link.reason? with
      | .error e, _ => .error (.failed id e.message)
      | .ok (), some reason => .error (.failed id reason)
      | .ok (), none => .ok ()

theorem invoke_of_leads (h : Leads registry id way missing?) (args : List Json) {fuel : Nat}
    (hfuel : way.length ≤ fuel) : invoke registry args fuel id =
      (outcome missing? way, way.map fun command => (command.2.tag, args)) := by
  induction h generalizing fuel with
  | missing id hnone =>
      cases fuel with
      | zero => rfl
      | succ fuel => simp [invoke, Registry.resolve, hnone, outcome]
  | last id link hfound hlast =>
      cases fuel with
      | zero => cases hfuel
      | succ fuel =>
          cases hreason : link.reason? <;>
            simp [invoke, Registry.resolve, hfound, hlast, outcome, hreason]
  | next id other link way missing? hfound hnext hleads ih =>
      cases fuel with
      | zero => cases hfuel
      | succ fuel =>
          have hrest := ih (Nat.le_of_succ_le_succ hfuel)
          cases houtcome : outcome missing? way <;> cases hreason : link.reason? <;>
            simp [invoke, Registry.resolve, hfound, hnext, hrest, outcome, houtcome, hreason]

theorem outcome_eq_ok_iff : outcome missing? way = .ok () ↔
    missing? = none ∧ ∀ command ∈ way, command.2.reason? = none := by
  induction way with
  | nil => cases missing? <;> simp [outcome]
  | cons command way ih =>
      rw [List.forall_mem_cons, and_left_comm, ← ih]
      cases houtcome : outcome missing? way <;> cases hreason : command.2.reason? <;>
        simp [outcome, houtcome, hreason]

/-- A failure behind some commands shows through all of them. -/
theorem outcome_append {before : List (String × Link)} {e : CommandError}
    (h : outcome missing? way = .error e) :
    outcome missing? (before ++ way) = .error (blamed before e) := by
  induction before with
  | nil => exact h
  | cons command before ih => simp [outcome, ih, blamed]

/-- **What an invocation notes and returns.**  From a name whose links come to an end, every command
on the way is called once, in order and with the same arguments.  The invocation succeeds exactly when
no name is missing and no command fails.  A missing name shows through every command on the way.  When
none is missing, the last command that fails shows through those before it, whatever their own
failures. -/
theorem invokeAll_of_leads (h : Leads registry id way missing?) (args : List Json) :
    (invokeAll registry id args).2 = way.map (fun command => (command.2.tag, args)) ∧
      ((invokeAll registry id args).1 = .ok () ↔
        missing? = none ∧ ∀ command ∈ way, command.2.reason? = none) ∧
      (∀ name, missing? = some name →
        (invokeAll registry id args).1 = .error (blamed way (.unknown name))) ∧
      ∀ before name link after reason, way = before ++ (name, link) :: after → missing? = none →
        link.reason? = some reason → (∀ command ∈ after, command.2.reason? = none) →
          (invokeAll registry id args).1 = .error (blamed before (.failed name reason)) := by
  rw [invokeAll, invoke_of_leads h args (Nat.le_succ_of_le h.length_le)]
  refine ⟨rfl, outcome_eq_ok_iff, ?_, ?_⟩
  · rintro name rfl
    have hend : outcome (some name) (way ++ []) = .error (blamed way (.unknown name)) :=
      outcome_append rfl
    simpa using hend
  · rintro before name link after reason rfl rfl hreason hafter
    have hrest : outcome none after = .ok () := outcome_eq_ok_iff.mpr ⟨rfl, hafter⟩
    refine outcome_append ?_
    simp [outcome, hrest, hreason]

end Link
end LanguageClient
