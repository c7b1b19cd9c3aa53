import LanguageClient.Proofs.Client.Attempts
import LanguageClient.Proofs.Connection.Results

/-!
# What a client does of itself on its connections

A client of itself makes requests, sends notifications, takes replies and gives connections up.  None
of that brings anything from a server: no notification is queued or taken, and no result comes to a
caller.

* `Client.link`, `Client.IsNumbered` — the connection of a generation, and its numbered requests.
* `Client.BringsNothing` — nothing comes from any server.
* `bringsNothing_updateConnection`, `bringsNothing_append`, `bringsNothing_tidy` — what a client
  does of itself.
* `untaken?_send`, `settle?_eq_ok_iff` — a new request has no result, and a result can be taken.
-/

namespace LanguageClient
namespace Client

variable {c d e : Client} {g : Nat}

/-! ### Links -/

/-- The connection of a generation; as long as there is none, one at its beginning. -/
def link (c : Client) (g : Nat) : Connection := (c.connection? g).getD {}

theorem link_of_attempts (h : d.attempts = c.attempts) (g : Nat) : d.link g = c.link g := by
  rw [link, connection?, attempt?, h]
  rfl

theorem link_of_attempt {a : Attempt} (h : c.attempt? g = some a) : c.link g = a.connection := by
  rw [link, connection?, h]
  rfl

/-- A change of one attempt changes the connection of that attempt alone. -/
theorem link_updateAttempt (c : Client) (g : Nat) (f : Attempt → Attempt) (i : Nat) :
    (c.updateAttempt g f).link i =
      if g = i then ((c.attempt? i).map fun a => (f a).connection).getD {} else c.link i := by
  rw [link, connection?, attempt?_updateAttempt]
  split
  · rw [Option.map_map]
    rfl
  · rfl

/-- There is no request on a connection at its beginning. -/
theorem isNumbered_empty : Connection.IsNumbered {} := List.forall_mem_nil _

/-- The requests on every connection have numbers below the next one. -/
def IsNumbered (c : Client) : Prop := ∀ g, (c.link g).IsNumbered

theorem isNumbered_attemptsGoOn (h : c.AttemptsGoOn d) (hc : c.IsNumbered) : d.IsNumbered := by
  have hmove : ∀ a b : Attempt, a.connection.IsNumbered → a.Move b → b.connection.IsNumbered := by
    intro a b ha hm
    cases hm with
    | connection action hstep => exact Connection.isNumbered_step ha hstep
    | _ => exact ha
  intro g
  unfold link connection?
  cases hd : d.attempt? g with
  | none => exact isNumbered_empty
  | some b =>
      cases hattempt : c.attempt? g with
      | none => exact Attempt.goesOn_keeps hmove (h.begins g b hattempt hd) isNumbered_empty
      | some a =>
          obtain ⟨b', hb', hgoes⟩ := h.goesOn g a hattempt
          obtain rfl : b = b' := Option.some.inj (hd.symm.trans hb')
          exact Attempt.goesOn_keeps hmove hgoes (link_of_attempt hattempt ▸ hc g)

theorem isNumbered_new (options : SessionOptions) (processId : Nat) (workspace : Workspace) :
    (Client.new options processId workspace).IsNumbered := by
  intro g
  have hnone : (Client.new options processId workspace).attempt? g = none := by
    simp [attempt?, Client.new]
  rw [link, connection?, hnone]
  exact isNumbered_empty

/-! ### Nothing comes -/

/-- Nothing comes from any server. -/
def BringsNothing (c d : Client) : Prop := ∀ g, (c.link g).BringsNothing (d.link g)

theorem bringsNothing_of_attempts (h : d.attempts = c.attempts) : c.BringsNothing d := fun g => by
  rw [link_of_attempts h]
  exact Connection.bringsNothing_refl _

theorem bringsNothing_refl (c : Client) : c.BringsNothing c := bringsNothing_of_attempts rfl

theorem BringsNothing.trans (h : c.BringsNothing d) (h' : d.BringsNothing e) :
    c.BringsNothing e := fun g => (h g).trans (h' g)

theorem bringsNothing_updateAttempt {f : Attempt → Attempt}
    (h : ∀ a, c.attempt? g = some a → a.connection.BringsNothing (f a).connection) :
    c.BringsNothing (c.updateAttempt g f) := by
  intro i
  rw [link_updateAttempt]
  split
  · rename_i hi
    subst hi
    unfold link connection?
    cases hattempt : c.attempt? g with
    | none => exact Connection.bringsNothing_refl _
    | some a => exact h a hattempt
  · exact Connection.bringsNothing_refl _

/-- A caller does something on a connection. -/
theorem bringsNothing_updateConnection {f : Connection → Connection}
    (h : ∀ k, c.connection? g = some k →
      ∃ action : Connection.Action, action.isSpontaneous = false ∧ k.step? action = some (f k)) :
    c.BringsNothing (c.updateConnection g f) := by
  refine bringsNothing_updateAttempt fun a ha => ?_
  obtain ⟨action, haction, hstep⟩ := h a.connection (by rw [connection?, ha, Option.map_some])
  exact Connection.bringsNothing_step? haction hstep

theorem bringsNothing_setLaunch (c : Client) (g : Nat) (launch : Launch) (taken : Bool)
    (process : Process) : c.BringsNothing (c.setLaunch g launch taken process) := by
  refine bringsNothing_updateAttempt fun a _ => ?_
  dsimp only
  split
  · exact ⟨rfl, fun _ _ hvalue => hvalue⟩
  · exact Connection.bringsNothing_refl _

/-- A request that is made has no result yet, where the requests before it are numbered. -/
theorem untaken?_send (h : c.IsNumbered) (g : Nat) (method : String) (params : Json) (span : Nat) :
    ((c.send g method params span).1.link g).untaken? (c.send g method params span).2 = none := by
  unfold send
  cases hconnection : c.connection? g with
  | none =>
      dsimp only
      rw [link, hconnection]
      rfl
  | some connection =>
      let asked := (connection.request method params (c.now + span)).1
      change ((c.updateConnection g fun _ => asked).link g).untaken? connection.nextId = none
      obtain ⟨a, hattempt, rfl⟩ := Option.map_eq_some_iff.mp hconnection
      have hlink : (c.updateConnection g fun _ => asked).link g = asked := by
        rw [updateConnection, link_updateAttempt, if_pos rfl, hattempt]
        rfl
      have hnothing : a.connection.BringsNothing asked :=
        @Connection.bringsNothing_step? _ _ (.request method params (c.now + span)) rfl rfl
      rw [hlink]
      exact Connection.untaken?_of_bringsNothing hnothing
        (Connection.untaken?_of_isNumbered (link_of_attempt hattempt ▸ h g))

/-- A new attempt has a connection at its beginning. -/
theorem bringsNothing_append (c : Client) :
    c.BringsNothing { c with attempts := c.attempts ++ [{}] } := by
  intro g
  have hsame : ({ c with attempts := c.attempts ++ [{}] } : Client).link g = c.link g := by
    unfold link connection? attempt?
    split
    · rfl
    · rw [List.getElem?_append]
      split
      · rfl
      · rename_i hnew
        rw [List.getElem?_eq_none (Nat.le_of_not_lt hnew), List.getElem?_singleton]
        split <;> rfl
  rw [hsame]
  exact Connection.bringsNothing_refl _

/-- A connection that nobody keeps is aborted. -/
theorem link_tidy (c : Client) (g : Nat) :
    c.tidy.link g = c.link g ∨ c.tidy.link g = (c.link g).abort := by
  unfold link connection?
  rw [attempt?_tidy]
  cases c.attempt? g with
  | none => exact .inl rfl
  | some a =>
      simp only [Option.map_some, Option.getD_some]
      split
      · exact .inl rfl
      · unfold discard
        split
        · exact .inr rfl
        · exact .inl rfl

theorem bringsNothing_tidy (c : Client) : c.BringsNothing c.tidy := by
  intro g
  rcases c.link_tidy g with hsame | haborted
  · rw [hsame]
    exact Connection.bringsNothing_refl _
  · rw [haborted]
    exact @Connection.bringsNothing_step? _ _ .abort rfl rfl

/-- A caller can take the result that waits for it, and no other one. -/
theorem settle?_eq_ok_iff {id : Nat} {value : Json} :
    (∃ d, c.settle? g id = some (d, .ok value)) ↔ (c.link g).untaken? id = some value := by
  unfold settle? link
  cases hconnection : c.connection? g with
  | none => exact ⟨by simp, nofun⟩
  | some connection =>
      rw [Option.bind_some, Option.getD_some]
      constructor
      · rintro ⟨d, h⟩
        split at h
        · rename_i settled outcome hsettle
          cases h
          exact Connection.untaken?_of_settle? hsettle
        · cases h
      · intro h
        obtain ⟨settled, hsettle⟩ := Connection.settle?_of_untaken? h c.now
        rw [hsettle]
        exact ⟨_, rfl⟩

end Client
end LanguageClient
