import LanguageClient.Session.Status

/-!
# The statuses that sessions with given fates publish

Every session has one of three fates: its start fails, it is ready and lost, or it is ready and
stopped.  Sessions that follow one another publish one block of statuses each.

* `Fate.block` — the statuses of one session.
* `chronicle` — the statuses of the sessions 1, 2, 3, ... with given fates.
* `Status.Before` — the order in which statuses may follow one another.
* **`pairwise_chronicle`** — in a chronicle no status is followed by an earlier one or by itself, and
  no session ends twice.
* **`eq_chronicle_of_starting`** — before a session starts, every earlier one has had its whole block.
* `filter_chronicle` — what a chronicle tells of one session.
-/

namespace LanguageClient

/-- What becomes of a session. -/
inductive Fate where
  /-- Its start fails. -/
  | failed
  /-- It is ready, and its connection is lost. -/
  | lost
  /-- It is ready, and it is stopped. -/
  | stopped
  deriving DecidableEq, Repr

/-- The statuses that a session publishes. -/
def Fate.block (g : Nat) : Fate → List Status
  | failed => [⟨g, .starting⟩, ⟨g, .failed⟩]
  | lost => [⟨g, .starting⟩, ⟨g, .ready⟩, ⟨g, .failed⟩]
  | stopped => [⟨g, .starting⟩, ⟨g, .ready⟩, ⟨g, .stopped⟩]

/-- The statuses of consecutive sessions from a generation on. -/
def chronicleFrom : Nat → List Fate → List Status
  | _, [] => []
  | g, fate :: rest => fate.block g ++ chronicleFrom (g + 1) rest

/-- The statuses of the sessions 1, 2, 3, ... with given fates. -/
def chronicle (fates : List Fate) : List Status := chronicleFrom 1 fates

theorem chronicleFrom_append (g : Nat) (fates rest : List Fate) :
    chronicleFrom g (fates ++ rest) =
      chronicleFrom g fates ++ chronicleFrom (g + fates.length) rest := by
  induction fates generalizing g with
  | nil => rfl
  | cons fate tail ih =>
      have harith : g + 1 + tail.length = g + (fate :: tail).length := by
        rw [List.length_cons]
        omega
      simp only [List.cons_append, chronicleFrom, ih, harith, List.append_assoc]

/-- One more session adds its block. -/
theorem chronicle_append (fates : List Fate) (fate : Fate) :
    chronicle (fates ++ [fate]) = chronicle fates ++ fate.block (fates.length + 1) := by
  rw [chronicle, chronicleFrom_append, Nat.add_comm 1]
  simp [chronicle, chronicleFrom]

/-! ### The order of statuses -/

/-- How far a session has come: ready after its start, and an end after both. -/
def SessionState.rank : SessionState → Nat
  | starting => 0
  | ready => 1
  | failed => 2
  | stopped => 2

/-- A status of an earlier session, or of the same one at an earlier time. -/
def Status.Before (s t : Status) : Prop :=
  s.generation < t.generation ∨ s.generation = t.generation ∧ s.state.rank < t.state.rank

theorem generation_of_mem_block (g : Nat) (fate : Fate) : ∀ s ∈ fate.block g, s.generation = g := by
  cases fate <;> simp [Fate.block]

theorem le_generation_of_mem {g : Nat} {fates : List Fate} {s : Status}
    (h : s ∈ chronicleFrom g fates) : g ≤ s.generation := by
  induction fates generalizing g with
  | nil => cases h
  | cons fate rest ih =>
      rw [chronicleFrom, List.mem_append] at h
      rcases h with hblock | hrest
      · exact Nat.le_of_eq (generation_of_mem_block g fate s hblock).symm
      · have hle := ih hrest
        omega

theorem pairwise_block (g : Nat) (fate : Fate) : (fate.block g).Pairwise Status.Before := by
  cases fate <;> simp [Fate.block, Status.Before, SessionState.rank]

theorem pairwise_chronicleFrom (g : Nat) (fates : List Fate) :
    (chronicleFrom g fates).Pairwise Status.Before := by
  induction fates generalizing g with
  | nil => exact List.Pairwise.nil
  | cons fate rest ih =>
      rw [chronicleFrom, List.pairwise_append]
      refine ⟨pairwise_block g fate, ih (g + 1), ?_⟩
      intro s hs t ht
      have hs' := generation_of_mem_block g fate s hs
      have ht' := le_generation_of_mem ht
      left
      omega

/-- **Statuses go on and never back.**  In any beginning of a chronicle every status comes after
those before it; in particular a session has at most one end. -/
theorem pairwise_chronicle {published : List Status} {fates : List Fate}
    (h : published <+: chronicle fates) : published.Pairwise Status.Before :=
  (pairwise_chronicleFrom 1 fates).sublist h.sublist

/-! ### Whole blocks -/

theorem eq_chronicleFrom_of_starting {g first : Nat} {fates : List Fate} {before after : List Status}
    (h : before ++ ⟨g, .starting⟩ :: after <+: chronicleFrom first fates) :
    ∃ done : List Fate, g = first + done.length ∧ before = chronicleFrom first done := by
  induction fates generalizing first before with
  | nil => simp [chronicleFrom] at h
  | cons fate rest ih =>
      -- The start is the first status of the block, or comes after the whole block.
      have hsplit : before = [] ∧ g = first ∨
          ∃ more, before = fate.block first ++ more ∧
            more ++ ⟨g, .starting⟩ :: after <+: chronicleFrom (first + 1) rest := by
        cases fate <;> rcases before with _ | ⟨a, _ | ⟨b, _ | ⟨d, more⟩⟩⟩ <;>
          simp_all [chronicleFrom, Fate.block, List.cons_prefix_cons]
      rcases hsplit with ⟨rfl, rfl⟩ | ⟨more, rfl, hmore⟩
      · exact ⟨[], rfl, rfl⟩
      · obtain ⟨done, hg, hdone⟩ := ih hmore
        refine ⟨fate :: done, ?_, ?_⟩
        · rw [List.length_cons, hg]
          omega
        · rw [hdone, chronicleFrom]

/-- **No session starts before the last one has ended.**  What a beginning of a chronicle tells
before session `g + 1` starts is the chronicle of `g` sessions. -/
theorem eq_chronicle_of_starting {g : Nat} {fates : List Fate} {published before after : List Status}
    (h : published <+: chronicle fates)
    (hstarting : published = before ++ ⟨g + 1, .starting⟩ :: after) :
    ∃ done : List Fate, done.length = g ∧ before = chronicle done := by
  rw [hstarting] at h
  obtain ⟨done, hg, hdone⟩ := eq_chronicleFrom_of_starting h
  exact ⟨done, by omega, hdone⟩

/-! ### One session -/

theorem filter_chronicleFrom (first i : Nat) (fates : List Fate) :
    (chronicleFrom first fates).filter (·.generation = first + i) =
      (fates[i]?).elim [] (Fate.block (first + i)) := by
  induction fates generalizing first i with
  | nil => rfl
  | cons fate rest ih =>
      rw [chronicleFrom, List.filter_append]
      cases i with
      | zero =>
          -- The block is the first one, and no later one is about the same session.
          have hown : (fate.block first).filter (·.generation = first) = fate.block first :=
            List.filter_eq_self.mpr fun s hs => by simp [generation_of_mem_block first fate s hs]
          have hlater : (chronicleFrom (first + 1) rest).filter (·.generation = first) = [] := by
            refine List.filter_eq_nil_iff.mpr fun s hs => ?_
            have hle := le_generation_of_mem hs
            simp only [decide_eq_true_eq]
            omega
          rw [Nat.add_zero, hown, hlater, List.append_nil, List.getElem?_cons_zero, Option.elim_some]
      | succ i =>
          have hother : (fate.block first).filter (·.generation = first + (i + 1)) = [] := by
            refine List.filter_eq_nil_iff.mpr fun s hs => ?_
            have hs' := generation_of_mem_block first fate s hs
            simp only [decide_eq_true_eq]
            omega
          have harith : first + (i + 1) = first + 1 + i := by omega
          rw [hother, List.nil_append, List.getElem?_cons_succ, harith]
          exact ih (first + 1) i

/-- What a chronicle tells of one session is its block. -/
theorem filter_chronicle (i : Nat) (fates : List Fate) :
    (chronicle fates).filter (·.generation = i + 1) = (fates[i]?).elim [] (Fate.block (i + 1)) := by
  rw [Nat.add_comm i 1]
  exact filter_chronicleFrom 1 i fates

end LanguageClient
