import LanguageClient.Proofs.Progress.Family
import Mathlib.Data.List.Induction

/-!
# Balanced indicators

Wraps of any shape, polled, finished and dropped in any order: every indicator that begins ends once,
inside those around it.

* `sound_dropInside`, `sound_finish` — a wrap ends after everything inside it.
* `Progress.Family.Change`, `change_step` — what an event can do to a family.
* `Progress.Family.StageStep`, `stageStep_step` — what an event can do to a wrap.
* `Progress.Family.sound_run` — what holds of a family holds after any events.
* `Progress.Family.Happened`, `happened_iff` — the events of a run, and the stages that tell of them.
* **`Progress.Family.indicators_are_balanced`** — the indicators of a family after any events.
-/

namespace LanguageClient
namespace Progress

variable {α : Type}

/-- A stage after its wrap was dropped. -/
def Stage.dropped : Stage α → Stage α
  | ended id? output? => ended id? output?
  | stage => ended stage.id? none

namespace Stage

theorem dropped_of_isOver {stage : Stage α} (h : stage.isOver) : stage.dropped = stage := by
  cases stage with
  | ended id? output? => rfl
  | fresh => cases h
  | running id => cases h

theorem dropped_of_not_isOver {stage : Stage α} (h : stage.isOver = false) :
    stage.dropped = .ended stage.id? none := by
  cases stage with
  | ended id? output? => cases h
  | fresh => rfl
  | running id => rfl

theorem isOver_dropped (stage : Stage α) : stage.dropped.isOver := by
  cases stage <;> rfl

end Stage

namespace Family

variable {f g : Family α} {w j : Nat}

/-! ### What is inside is dropped -/

/-- What is inside a wrap is dropped from the last one on, each when nothing inside it is left; all
else stays as it is. -/
theorem sound_dropInside (h : f.Sound) (w : Nat) {n : Nat}
    (hleft : ∀ j, w ∈ f.around j → f.isAlive j → j < n) :
    (dropInside w n f).Sound ∧ (dropInside w n f).around = f.around ∧
      ∀ j, (dropInside w n f).stage? j =
        if w ∈ f.around j then (f.stage? j).map Stage.dropped else f.stage? j := by
  induction n generalizing f with
  | zero =>
      refine ⟨h, rfl, fun j => ?_⟩
      rw [dropInside]
      split
      · rename_i hj
        cases hstage : f.stage? j with
        | none => rfl
        | some stage =>
            -- No wrap inside is left to be dropped, so one that is there is over.
            have hover : stage.isOver := by
              by_contra hover
              exact Nat.not_lt_zero j (hleft j hj (by simp [isAlive, hstage, hover]))
            rw [Option.map_some, Stage.dropped_of_isOver hover]
      · rfl
  | succ n ih =>
      rw [dropInside]
      split
      · rename_i hdrops
        obtain ⟨halive, hinside⟩ := Bool.and_eq_true_iff.mp hdrops
        rw [List.contains_iff_mem] at hinside
        -- Whatever is inside the last wrap stands behind it, and those are over by now.
        have hlast : ∀ j, n ∈ f.around j → ¬ f.isAlive j := by
          intro j hj hjalive
          have hbefore := h.before hj
          have hlater := hleft j (h.nested hj hinside) hjalive
          omega
        obtain ⟨wrap, hwrap, hover⟩ := exists_wrap_of_isAlive halive
        obtain ⟨hsound, haround, hstage⟩ := ih (sound_close h halive hlast none) fun j hj hjalive => by
          rw [around_close] at hj
          obtain ⟨hne, hjalive⟩ := isAlive_close hjalive
          have hlt := hleft j hj hjalive
          omega
        refine ⟨hsound, haround.trans (around_close f n none), fun j => ?_⟩
        rw [hstage, around_close, stage?_close hwrap]
        by_cases hnj : n = j
        · subst hnj
          rw [if_pos hinside, if_pos hinside, if_pos rfl, stage?_of_wrap hwrap, Option.map_some,
            Option.map_some, Stage.dropped_of_not_isOver hover]
          rfl
        · rw [if_neg hnj]
      · rename_i hkeeps
        refine ih h fun j hj hjalive => ?_
        have hne : j ≠ n := by
          rintro rfl
          exact hkeeps (Bool.and_eq_true_iff.mpr ⟨hjalive, List.contains_iff_mem.mpr hj⟩)
        have hlt := hleft j hj hjalive
        omega

/-- A wrap ends when everything inside it is dropped. -/
theorem sound_finish (h : f.Sound) (halive : f.isAlive w) (output? : Option α) :
    (f.finish w output?).Sound ∧ ∀ j, (f.finish w output?).stage? j =
      if w = j then (f.stage? w).map fun stage => .ended stage.id? output?
      else if w ∈ f.around j then (f.stage? j).map Stage.dropped else f.stage? j := by
  have hself : w ∉ f.around w := fun hw => Nat.lt_irrefl w (h.before hw)
  obtain ⟨hsound, haround, hstage⟩ :=
    sound_dropInside h w (n := f.wraps.length) fun j _ hj => lt_of_isAlive hj
  have halive' : (dropInside w f.wraps.length f).isAlive w := by
    rwa [isAlive, hstage, if_neg hself]
  have hinside : ∀ j, w ∈ (dropInside w f.wraps.length f).around j →
      ¬ (dropInside w f.wraps.length f).isAlive j := by
    intro j hj
    rw [haround] at hj
    rw [isAlive, hstage, if_pos hj]
    cases f.stage? j with
    | none => simp
    | some stage => simp [stage.isOver_dropped]
  refine ⟨sound_close hsound halive' hinside output?, fun j => ?_⟩
  obtain ⟨wrap, hwrap, -⟩ := exists_wrap_of_isAlive halive'
  have hkept := stage?_of_wrap hwrap
  rw [hstage, if_neg hself] at hkept
  rw [finish, stage?_close hwrap, hstage, hkept]
  rfl

/-! ### What an event changes -/

/-- What an event makes of a family, and on what condition. -/
inductive Change (f : Family α) : Event α → Family α → Prop
  /-- A wrap that stands for itself, or in an operation that is not over. -/
  | adds (owner? : Option Nat) (title : String) (location : ProgressLocation) (around : List Nat)
      (haround : around = [] ∨ ∃ owner, f.isAlive owner ∧ around = owner :: f.around owner) :
      Change f (.wrap owner? title location) (f.add title location around)
  | enters (w : Nat) (hcan : f.canBegin w) : Change f (.poll w) (f.enter w)
  | settles (w : Nat) (output : α) (hrunning : f.isRunning w) :
      Change f (.settle w output) (f.finish w (some output))
  | drops (w : Nat) (halive : f.isAlive w) : Change f (.drop w) (f.finish w none)
  /-- The event is none that could happen now. -/
  | refuses (event : Event α) (hpoll : ∀ w, event = .poll w → ¬ f.canBegin w)
      (hsettle : ∀ w output, event = .settle w output → ¬ f.isRunning w)
      (hdrop : ∀ w, event = .drop w → ¬ f.isAlive w) : Change f event f

/-- **Every event is one of these changes.** -/
theorem change_step (f : Family α) (event : Event α) : f.Change event (f.step event) := by
  cases event with
  | wrap owner? title location =>
      cases owner? with
      | none => exact .adds none title location [] (.inl rfl)
      | some owner =>
          rw [step]
          split
          · exact .adds _ title location _ (.inr ⟨owner, ‹_›, rfl⟩)
          · exact .refuses _ nofun nofun nofun
  | poll w =>
      rw [step]
      split
      · exact .enters w ‹_›
      · refine .refuses _ ?_ nofun nofun
        rintro _ ⟨⟩
        assumption
  | settle w output =>
      rw [step]
      split
      · exact .settles w output ‹_›
      · refine .refuses _ nofun ?_ nofun
        rintro _ _ ⟨⟩
        assumption
  | drop w =>
      rw [step]
      split
      · exact .drops w ‹_›
      · refine .refuses _ nofun nofun ?_
        rintro _ ⟨⟩
        assumption

/-! ### What an event is to a wrap -/

/-- A wrap is polled for the first time. -/
def Begins (w : Nat) (f : Family α) (event : Event α) : Prop := event = .poll w ∧ f.canBegin w

/-- The operation of a wrap comes to its output. -/
def Returns (w : Nat) (output : α) (f : Family α) (event : Event α) : Prop :=
  event = .settle w output ∧ f.isRunning w

/-- A wrap is finished or dropped, or one that it runs in is. -/
def Ends (w : Nat) (f : Family α) (event : Event α) : Prop :=
  f.isAlive w ∧ ∃ x ∈ w :: f.around w,
    event = .drop x ∨ ∃ output, event = .settle x output ∧ f.isRunning x

variable {event : Event α} {output : α}

theorem not_begins_of_ends (h : f.Ends w event) : ¬ f.Begins w event := by
  rintro ⟨rfl, -⟩
  obtain ⟨-, x, -, ⟨⟨⟩⟩ | ⟨output, ⟨⟩, -⟩⟩ := h

theorem ends_of_returns (h : f.Returns w output event) : f.Ends w event := by
  obtain ⟨hevent, hrunning⟩ := h
  exact ⟨isAlive_of_isRunning hrunning, w, List.mem_cons_self, .inr ⟨output, hevent, hrunning⟩⟩

theorem ends_drop_iff : f.Ends w (.drop j) ↔ f.isAlive w ∧ j ∈ w :: f.around w := by
  constructor
  · rintro ⟨halive, x, hx, ⟨⟨⟩⟩ | ⟨output, ⟨⟩, -⟩⟩
    exact ⟨halive, hx⟩
  · rintro ⟨halive, hj⟩
    exact ⟨halive, j, hj, .inl rfl⟩

theorem ends_settle_iff :
    f.Ends w (.settle j output) ↔ f.isAlive w ∧ j ∈ w :: f.around w ∧ f.isRunning j := by
  constructor
  · rintro ⟨halive, x, hx, ⟨⟨⟩⟩ | ⟨_, ⟨⟩, hrunning⟩⟩
    exact ⟨halive, hx, hrunning⟩
  · rintro ⟨halive, hj, hrunning⟩
    exact ⟨halive, j, hj, .inr ⟨output, rfl, hrunning⟩⟩

/-- Where a wrap goes by an event. -/
inductive StageStep (f : Family α) (event : Event α) (w : Nat) : Stage α → Stage α → Prop
  | stays (stage : Stage α) (hbegins : ¬ f.Begins w event) (hends : ¬ f.Ends w event) :
      StageStep f event w stage stage
  | begins (id : Nat) (h : f.Begins w event) : StageStep f event w .fresh (.running id)
  | returns (id : Nat) (output : α) (h : f.Returns w output event) :
      StageStep f event w (.running id) (.ended (some id) (some output))
  | isDropped (stage : Stage α) (halive : stage.isOver = false) (h : f.Ends w event)
      (hreturns : ∀ output, ¬ f.Returns w output event) :
      StageStep f event w stage (.ended stage.id? none)

/-- When a wrap ends, it goes itself, and so does everything inside it. -/
theorem stageStep_finish (h : f.Sound) {output? : Option α} {stage : Stage α}
    (hstage : f.stage? w = some stage) (halive : f.isAlive j)
    (hrunning : ∀ output, output? = some output → f.isRunning j) (hbegins : ¬ f.Begins w event)
    (hends : f.Ends w event ↔ f.isAlive w ∧ j ∈ w :: f.around w)
    (hreturns : ∀ output, f.Returns w output event ↔ j = w ∧ output? = some output) :
    ∃ next, (f.finish j output?).stage? w = some next ∧ f.StageStep event w stage next := by
  obtain ⟨-, hstages⟩ := sound_finish h halive output?
  have hover : f.isAlive w ↔ stage.isOver = false := by simp [isAlive, hstage]
  rw [hstages]
  -- The wrap itself ends, one inside it is dropped, and any other stays.
  by_cases hjw : j = w
  · subst hjw
    refine ⟨.ended stage.id? output?, by rw [if_pos rfl, hstage, Option.map_some], ?_⟩
    cases output? with
    | none =>
        exact .isDropped stage (hover.mp halive) (hends.mpr ⟨halive, List.mem_cons_self⟩)
          fun output hreturn => by cases ((hreturns output).mp hreturn).2
    | some output =>
        obtain ⟨id, hid⟩ := isRunning_iff.mp (hrunning output rfl)
        obtain rfl : stage = .running id := Option.some.inj (hstage.symm.trans hid)
        exact .returns id output ((hreturns output).mpr ⟨rfl, rfl⟩)
  · rw [if_neg hjw, hstage]
    by_cases hinside : j ∈ f.around w
    · rw [if_pos hinside]
      refine ⟨stage.dropped, rfl, ?_⟩
      cases hcase : stage.isOver with
      | true =>
          rw [Stage.dropped_of_isOver hcase]
          refine .stays stage hbegins fun hend => ?_
          have hnot := hover.mp (hends.mp hend).1
          rw [hcase] at hnot
          cases hnot
      | false =>
          rw [Stage.dropped_of_not_isOver hcase]
          exact .isDropped stage hcase
            (hends.mpr ⟨hover.mpr hcase, List.mem_cons_of_mem _ hinside⟩)
            fun output hreturn => hjw ((hreturns output).mp hreturn).1
    · rw [if_neg hinside]
      refine ⟨stage, rfl, .stays stage hbegins fun hend => ?_⟩
      rcases List.mem_cons.mp (hends.mp hend).2 with hsame | hmem
      · exact hjw hsame
      · exact hinside hmem

/-- What a change makes of the stage of a wrap. -/
theorem stageStep_of_change (h : f.Sound) (hchange : f.Change event g) {stage : Stage α}
    (hstage : f.stage? w = some stage) :
    ∃ next, g.stage? w = some next ∧ f.StageStep event w stage next := by
  cases hchange with
  | adds owner? title location around haround =>
      refine ⟨stage, ?_, .stays stage (by rintro ⟨⟨⟩, -⟩) ?_⟩
      · rw [stage?_add, if_neg (Nat.ne_of_lt (lt_of_stage? hstage)), hstage]
      · rintro ⟨-, x, -, ⟨⟨⟩⟩ | ⟨output, ⟨⟩, -⟩⟩
  | enters x hcan =>
      have hfresh := (canBegin_iff.mp hcan).1
      obtain ⟨wrap, hwrap, -⟩ := exists_wrap hfresh
      rw [stage?_enter hwrap]
      by_cases hxw : x = w
      · subst hxw
        obtain rfl : stage = .fresh := Option.some.inj (hstage.symm.trans hfresh)
        exact ⟨_, if_pos rfl, .begins _ ⟨rfl, hcan⟩⟩
      · refine ⟨stage, (if_neg hxw).trans hstage, .stays stage ?_ ?_⟩
        · rintro ⟨⟨⟩, -⟩
          exact hxw rfl
        · rintro ⟨-, y, -, ⟨⟨⟩⟩ | ⟨output, ⟨⟩, -⟩⟩
  | settles x output hrunning =>
      -- Only this wrap returns, and only this output.
      refine stageStep_finish h hstage (isAlive_of_isRunning hrunning) (fun _ _ => hrunning)
        (by rintro ⟨⟨⟩, -⟩) ?_ fun other => ⟨?_, ?_⟩
      · simp [ends_settle_iff, hrunning]
      · rintro ⟨⟨⟩, -⟩
        exact ⟨rfl, rfl⟩
      · rintro ⟨rfl, ⟨⟩⟩
        exact ⟨rfl, hrunning⟩
  | drops x halive =>
      refine stageStep_finish h hstage halive (by simp) (by rintro ⟨⟨⟩, -⟩) ends_drop_iff
        fun other => ⟨?_, ?_⟩
      · rintro ⟨⟨⟩, -⟩
      · rintro ⟨-, ⟨⟩⟩
  | refuses _ hpoll hsettle hdrop =>
      refine ⟨stage, hstage, .stays stage (fun hbegins => hpoll w hbegins.1 hbegins.2) ?_⟩
      rintro ⟨halive, x, hx, hdropped | ⟨output, hsettled, hrunning⟩⟩
      · -- What is around a wrap that is not over is not over either.
        refine hdrop x hdropped ?_
        rcases List.mem_cons.mp hx with rfl | hx
        · exact halive
        · exact h.alive hx halive
      · exact hsettle x output hsettled hrunning

/-- **What an event can do to a wrap.** -/
theorem stageStep_step (h : f.Sound) (event : Event α) {stage : Stage α}
    (hstage : f.stage? w = some stage) :
    ∃ next, (f.step event).stage? w = some next ∧ f.StageStep event w stage next :=
  stageStep_of_change h (change_step f event) hstage

/-- A wrap that is new has not been polled. -/
theorem stage?_of_change (h : f.Sound) (hchange : f.Change event g) (hnone : f.stage? j = none)
    {stage : Stage α} (hstage : g.stage? j = some stage) : stage = .fresh := by
  have hfinish : ∀ {w : Nat} (output? : Option α), f.isAlive w →
      (f.finish w output?).stage? j = none := by
    intro w output? halive
    have hwj : w ≠ j := by
      rintro rfl
      simp [isAlive, hnone] at halive
    rw [(sound_finish h halive output?).2, if_neg hwj, hnone, Option.map_none, ite_self]
  cases hchange with
  | adds owner? title location around haround =>
      rw [stage?_add, hnone] at hstage
      split at hstage <;> cases hstage
      rfl
  | enters w hcan =>
      have hfresh := (canBegin_iff.mp hcan).1
      obtain ⟨wrap, hwrap, -⟩ := exists_wrap hfresh
      have hwj : w ≠ j := by
        rintro rfl
        cases hnone.symm.trans hfresh
      rw [stage?_enter hwrap, if_neg hwj, hnone] at hstage
      cases hstage
  | settles w output hrunning => cases (hfinish _ (isAlive_of_isRunning hrunning)).symm.trans hstage
  | drops w halive => cases (hfinish _ halive).symm.trans hstage
  | refuses => cases hnone.symm.trans hstage

theorem sound_of_change (h : f.Sound) (hchange : f.Change event g) : g.Sound := by
  cases hchange with
  | adds owner? title location around haround =>
      refine sound_add h (fun i hi => ?_) title location
      rcases haround with rfl | ⟨owner, howner, rfl⟩
      · cases hi
      · rcases List.mem_cons.mp hi with rfl | hi
        · exact ⟨howner, List.subset_cons_self _ _⟩
        · exact ⟨h.alive hi howner, fun _ hk => List.mem_cons_of_mem _ (h.nested hi hk)⟩
  | enters w hcan => exact sound_enter h hcan
  | settles w output hrunning => exact (sound_finish h (isAlive_of_isRunning hrunning) _).1
  | drops w halive => exact (sound_finish h halive none).1
  | refuses => exact h

/-- **Every event keeps what holds of a family.** -/
theorem sound_step (h : f.Sound) (event : Event α) : (f.step event).Sound :=
  sound_of_change h (change_step f event)

/-- **It holds after any events.** -/
theorem sound_run (h : f.Sound) (events : List (Event α)) : (f.run events).Sound := by
  induction events using List.reverseRecOn with
  | nil => exact h
  | append_singleton past event ih =>
      rw [run_append]
      exact sound_step ih event

/-! ### What has happened -/

/-- Whether something has happened by one of the events of a run. -/
def Happened (what : Family α → Event α → Prop) (events : List (Event α)) : Prop :=
  ∃ past event later, events = past ++ event :: later ∧ what (run {} past) event

theorem not_happened_nil (what : Family α → Event α → Prop) : ¬ Happened what [] := by
  rintro ⟨past, event, later, hsplit, -⟩
  exact List.append_ne_nil_of_right_ne_nil past (List.cons_ne_nil event later) hsplit.symm

theorem happened_snoc (what : Family α → Event α → Prop) (past : List (Event α)) (event : Event α) :
    Happened what (past ++ [event]) ↔ Happened what past ∨ what (run {} past) event := by
  constructor
  · rintro ⟨earlier, here, later, hsplit, hwhat⟩
    rcases List.eq_nil_or_concat later with rfl | ⟨between, last, rfl⟩
    · obtain ⟨rfl, hlast⟩ := List.append_inj' hsplit rfl
      obtain rfl := List.singleton_injective hlast
      exact .inr hwhat
    · rw [List.concat_eq_append, ← List.cons_append, ← List.append_assoc] at hsplit
      exact .inl ⟨earlier, here, between, (List.append_inj' hsplit rfl).1, hwhat⟩
  · rintro (⟨earlier, here, later, rfl, hwhat⟩ | hwhat)
    · exact ⟨earlier, here, later ++ [event], by simp, hwhat⟩
    · exact ⟨past, event, [], rfl, hwhat⟩

/-- What has happened to a wrap can be told from its stage. -/
theorem happened_iff {what : Family α → Event α → Prop} {holds : Stage α → Prop}
    (hfresh : ¬ holds .fresh) (hthere : ∀ f event, what f event → f.stage? w ≠ none)
    (hgoes : ∀ f event stage next, StageStep f event w stage next →
      (holds next ↔ holds stage ∨ what f event)) (events : List (Event α)) :
    Happened what events ↔ ∃ stage, (run {} events).stage? w = some stage ∧ holds stage := by
  induction events using List.reverseRecOn with
  | nil =>
      refine iff_of_false (not_happened_nil what) ?_
      rintro ⟨stage, hstage, -⟩
      cases hstage
  | append_singleton past event ih =>
      rw [happened_snoc, ih, run_append]
      change _ ↔ ∃ stage, (step (run {} past) event).stage? w = some stage ∧ holds stage
      cases hstage : (run {} past).stage? w with
      | none =>
          refine iff_of_false ?_ ?_
          · rintro (⟨stage, ⟨⟩, -⟩ | hwhat)
            exact hthere _ event hwhat hstage
          · rintro ⟨stage, hnew, hholds⟩
            have hunpolled :=
              stage?_of_change (sound_run sound_empty past) (change_step _ event) hstage hnew
            exact hfresh (hunpolled ▸ hholds)
      | some stage =>
          obtain ⟨next, hnext, hgo⟩ := stageStep_step (sound_run sound_empty past) event hstage
          rw [hnext]
          simp [hgoes _ _ _ _ hgo]

/-- A wrap has an indicator when it was polled. -/
theorem happened_begins_iff (w : Nat) (events : List (Event α)) : Happened (Begins w) events ↔
    ∃ stage, (run {} events).stage? w = some stage ∧ stage.id? ≠ none := by
  refine happened_iff (fun hfresh => hfresh rfl) (fun f event hbegins hnone => ?_)
    (fun f event stage next hgo => ?_) events
  · rw [(canBegin_iff.mp hbegins.2).1] at hnone
    cases hnone
  · cases hgo with
    | stays _ hbegins => simp [hbegins]
    | begins id h => simp [h, Stage.id?]
    | returns id output h => simp [Stage.id?]
    | isDropped _ _ h => simp [not_begins_of_ends h, Stage.id?]

/-- A wrap is over when it, or one that it runs in, was finished or dropped. -/
theorem happened_ends_iff (w : Nat) (events : List (Event α)) : Happened (Ends w) events ↔
    ∃ stage, (run {} events).stage? w = some stage ∧ stage.isOver := by
  refine happened_iff (fun hfresh => by cases hfresh) (fun f event hends hnone => ?_)
    (fun f event stage next hgo => ?_) events
  · have halive := hends.1
    rw [isAlive, hnone] at halive
    cases halive
  · cases hgo with
    | stays _ _ hends => simp [hends]
    | begins id h =>
        have hends : ¬ f.Ends w event := fun hends => not_begins_of_ends hends h
        simp [Stage.isOver, hends]
    | returns id output h => simp [Stage.isOver, ends_of_returns h]
    | isDropped _ _ h => simp [Stage.isOver, h]

/-- What a wrap returned is what its own operation came to. -/
theorem happened_returns_iff (w : Nat) (output : α) (events : List (Event α)) :
    Happened (Returns w output) events ↔
      ∃ stage, (run {} events).stage? w = some stage ∧ stage.output? = some output := by
  refine happened_iff (fun hfresh => by cases hfresh) (fun f event hreturns hnone => ?_)
    (fun f event stage next hgo => ?_) events
  · have hrunning := hreturns.2
    rw [isRunning, hnone] at hrunning
    cases hrunning
  · cases hgo with
    | stays _ _ hends =>
        have hreturns : ¬ f.Returns w output event := fun hreturns =>
          hends (ends_of_returns hreturns)
        simp [hreturns]
    | begins id h =>
        have hreturns : ¬ f.Returns w output event := fun hreturns =>
          not_begins_of_ends (ends_of_returns hreturns) h
        simp [Stage.output?, hreturns]
    | returns id other h =>
        obtain ⟨rfl, hrunning⟩ := h
        simp [Stage.output?, Returns, hrunning]
    | isDropped _ halive _ hreturns =>
        have hnone : stage.output? = none := by
          cases stage with
          | ended id? output? => cases halive
          | fresh => rfl
          | running id => rfl
        rw [hnone]
        simp [Stage.output?, hreturns]

/-! ### The indicators of a family -/

section Runs

variable {events : List (Event α)} {wrap : Wrap α}

theorem calls_of_wrap (hwrap : (run {} events).wraps[w]? = some wrap) :
    callsIn (run {} events).journal w = wrap.calls := by
  rw [(sound_run sound_empty events).calls, hwrap, Option.elim_some]

theorem begins_iff_of_wrap (hwrap : (run {} events).wraps[w]? = some wrap) :
    Happened (Begins w) events ↔ wrap.stage.id? ≠ none := by
  simp [happened_begins_iff, stage?_of_wrap hwrap]

theorem ends_iff_of_wrap (hwrap : (run {} events).wraps[w]? = some wrap) :
    Happened (Ends w) events ↔ wrap.stage.isOver := by
  simp [happened_ends_iff, stage?_of_wrap hwrap]

theorem returns_iff_of_wrap (hwrap : (run {} events).wraps[w]? = some wrap) :
    Happened (Returns w output) events ↔ wrap.stage.output? = some output := by
  simp [happened_returns_iff, stage?_of_wrap hwrap]

/-- A wrap that was dropped before it was polled has made no call. -/
theorem calls_of_not_begins (hwrap : (run {} events).wraps[w]? = some wrap)
    (hbegins : ¬ Happened (Begins w) events) : callsIn (run {} events).journal w = [] := by
  rw [begins_iff_of_wrap hwrap, not_not] at hbegins
  rw [calls_of_wrap hwrap, Wrap.calls]
  cases hstage : wrap.stage with
  | fresh => rfl
  | running id =>
      rw [hstage] at hbegins
      cases hbegins
  | ended id? output? =>
      rw [hstage] at hbegins
      obtain rfl : id? = none := hbegins
      rfl

/-- One that was polled has begun its indicator, and has ended it when it is over. -/
theorem calls_of_begins (hwrap : (run {} events).wraps[w]? = some wrap)
    (hbegins : Happened (Begins w) events) : ∃ id,
      (¬ Happened (Ends w) events → callsIn (run {} events).journal w =
        [.beginProgress id wrap.title wrap.location]) ∧
      (Happened (Ends w) events → callsIn (run {} events).journal w =
        [.beginProgress id wrap.title wrap.location, .endProgress id]) := by
  rw [begins_iff_of_wrap hwrap] at hbegins
  obtain ⟨id, hid⟩ := Option.ne_none_iff_exists'.mp hbegins
  refine ⟨id, ?_⟩
  rw [ends_iff_of_wrap hwrap, calls_of_wrap hwrap, Wrap.calls]
  cases hstage : wrap.stage with
  | fresh =>
      rw [hstage] at hid
      cases hid
  | running other =>
      rw [hstage] at hid
      obtain rfl : other = id := Option.some.inj hid
      exact ⟨fun _ => rfl, fun hover => by cases hover⟩
  | ended id? output? =>
      rw [hstage] at hid
      obtain rfl : id? = some id := hid
      exact ⟨fun hover => absurd rfl hover, fun _ => rfl⟩

theorem ends_of_not_isAlive (hw : w < (run {} events).wraps.length)
    (hdead : ¬ (run {} events).isAlive w) : Happened (Ends w) events := by
  have hwrap := List.getElem?_eq_getElem hw
  rw [ends_iff_of_wrap hwrap]
  simpa [isAlive, stage?_of_wrap hwrap] using hdead

/-- Nothing outlives the operation that it runs in. -/
theorem ends_of_around {i : Nat} (hi : i ∈ (run {} events).around j)
    (hends : Happened (Ends i) events) : Happened (Ends j) events := by
  obtain ⟨stage, hstage, hover⟩ := (happened_ends_iff i events).mp hends
  have hj : j < (run {} events).wraps.length := by
    by_contra hj
    simp [around, List.getElem?_eq_none (Nat.le_of_not_lt hj)] at hi
  refine ends_of_not_isAlive hj fun halive => ?_
  have hialive := (sound_run sound_empty events).alive hi halive
  rw [isAlive, hstage, Option.any_some, hover] at hialive
  cases hialive

/-- When all wraps are gone, no indicator is open. -/
theorem opened_of_ends (hgone : ∀ w < (run {} events).wraps.length, Happened (Ends w) events) :
    (run {} events).progress.opened = [] := by
  refine List.eq_nil_iff_forall_not_mem.mpr fun ⟨w, id⟩ hopened => ?_
  have hrunning := ((sound_run sound_empty events).opened w id).mp hopened
  obtain ⟨stage, hstage, hover⟩ := (happened_ends_iff w events).mp (hgone w (lt_of_stage? hrunning))
  obtain rfl : stage = .running id := Option.some.inj (hstage.symm.trans hrunning)
  cases hover

theorem mem_callsIn {journal : List (Nat × HostCall)} {call : HostCall} :
    call ∈ callsIn journal w ↔ (w, call) ∈ journal := by
  simp [callsIn]

/-- When all wraps are gone, every indicator that was begun has been ended. -/
theorem ended_of_ends (hgone : ∀ w < (run {} events).wraps.length, Happened (Ends w) events)
    {id : Nat} {title : String} {location : ProgressLocation}
    (hbegun : (w, .beginProgress id title location) ∈ (run {} events).journal) :
    (w, .endProgress id) ∈ (run {} events).journal := by
  have hw := lt_of_mem_journal (sound_run sound_empty events) hbegun
  have hwrap := List.getElem?_eq_getElem hw
  rw [← mem_callsIn] at hbegun ⊢
  by_cases hbegins : Happened (Begins w) events
  · obtain ⟨other, -, hcalls⟩ := calls_of_begins hwrap hbegins
    rw [hcalls (hgone w hw)] at hbegun ⊢
    obtain rfl : id = other := by simpa using And.left (by simpa using hbegun)
    simp
  · rw [calls_of_not_begins hwrap hbegins] at hbegun
    cases hbegun

end Runs

/-- **Indicators are balanced.**  A wrap that was polled has begun one indicator, with an identifier
that was never used before, and has ended it once when it was finished or dropped; one that was not
polled has done neither.  Whatever runs inside an operation begins and ends its indicators while the
one around it is open, and does not outlive it.  When all wraps are gone, no indicator is open.  And a
wrap returns what its own operation came to. -/
theorem indicators_are_balanced (events : List (Event α)) :
    let f : Family α := run {} events
    (∀ w wrap, f.wraps[w]? = some wrap →
      (¬ Happened (Begins w) events → callsIn f.journal w = []) ∧
      (Happened (Begins w) events → ∃ id,
        (¬ Happened (Ends w) events →
          callsIn f.journal w = [.beginProgress id wrap.title wrap.location]) ∧
        (Happened (Ends w) events →
          callsIn f.journal w = [.beginProgress id wrap.title wrap.location, .endProgress id])) ∧
      (∀ output, Happened (Returns w output) events ↔ wrap.stage.output? = some output)) ∧
    (∀ past entry later, f.journal = past ++ entry :: later →
      (∀ id title location, entry.2 = .beginProgress id title location →
        ∀ earlier ∈ past, earlier.2.indicator? ≠ some id) ∧
      ∀ i ∈ f.around entry.1, ∃ id title location,
        callsIn past i = [.beginProgress id title location]) ∧
    (∀ i j, i ∈ f.around j → Happened (Ends i) events → Happened (Ends j) events) ∧
    ((∀ w < f.wraps.length, Happened (Ends w) events) → f.progress.opened = [] ∧
      ∀ w id title location, (w, .beginProgress id title location) ∈ f.journal →
        (w, .endProgress id) ∈ f.journal) := by
  intro f
  refine ⟨fun w wrap hwrap => ⟨calls_of_not_begins hwrap, calls_of_begins hwrap, fun output => ?_⟩,
    (sound_run sound_empty events).ordered, fun i j hi hends => ends_of_around hi hends,
    fun hgone => ⟨opened_of_ends hgone, fun w id title location hbegun => ?_⟩⟩
  · exact returns_iff_of_wrap hwrap
  · exact ended_of_ends hgone hbegun

/-- An operation with three others inside it: one comes to its output, one is polled and one is not,
and then the outer one is dropped. -/
def abandonedRestart : List (Event String) :=
  [.wrap none "restart" .notification, .wrap (some 0) "stop" .window, .wrap (some 0) "start" .window,
    .wrap (some 2) "probe" .window, .poll 0, .poll 1, .poll 2, .settle 1 "stopped", .drop 0]

example : (run {} abandonedRestart).journal =
    [(0, .beginProgress 1 "restart" .notification), (1, .beginProgress 2 "stop" .window),
      (2, .beginProgress 3 "start" .window), (1, .endProgress 2), (2, .endProgress 3),
      (0, .endProgress 1)] := by
  rfl

/-- The operation that was dropped has ended its indicator, and so have those inside it; the one that
was not polled has none. -/
theorem abandoned_indicators_are_balanced : Happened (Returns 1 "stopped") abandonedRestart ∧
    (run {} abandonedRestart).progress.opened = [] ∧
    (∃ id, callsIn (run {} abandonedRestart).journal 0 =
      [.beginProgress id "restart" .notification, .endProgress id]) ∧
    (∃ id, callsIn (run {} abandonedRestart).journal 2 =
      [.beginProgress id "start" .window, .endProgress id]) ∧
    callsIn (run {} abandonedRestart).journal 3 = [] := by
  obtain ⟨hwraps, -, hnested, hgone⟩ := indicators_are_balanced abandonedRestart
  have hbegins : ∀ {w}, (run {} abandonedRestart).stage? w = some (.ended (some (w + 1)) none) →
      Happened (Begins w) abandonedRestart := by
    intro w hstage
    exact (happened_begins_iff w abandonedRestart).mpr ⟨_, hstage, by simp [Stage.id?]⟩
  have hunpolled : ¬ Happened (Begins 3) abandonedRestart := by
    rw [happened_begins_iff]
    rintro ⟨stage, ⟨⟩, hid⟩
    exact hid rfl
  have houter : Happened (Ends 0) abandonedRestart :=
    ⟨abandonedRestart.dropLast, .drop 0, [], rfl, ends_drop_iff.mpr (by decide)⟩
  have hends : ∀ w < (run {} abandonedRestart).wraps.length, Happened (Ends w) abandonedRestart := by
    intro w hw
    have hw : w < 4 := hw
    obtain rfl | hinside : w = 0 ∨ w = 1 ∨ w = 2 ∨ w = 3 := by omega
    · exact houter
    · refine hnested 0 w ?_ houter
      rcases hinside with rfl | rfl | rfl <;> decide
  obtain ⟨outer, -, houtercalls⟩ := (hwraps 0 _ rfl).2.1 (hbegins rfl)
  obtain ⟨inner, -, hinnercalls⟩ := (hwraps 2 _ rfl).2.1 (hbegins rfl)
  exact ⟨((hwraps 1 _ rfl).2.2 "stopped").mpr rfl, (hgone hends).1, ⟨outer, houtercalls houter⟩,
    ⟨inner, hinnercalls (hends 2 (by decide))⟩, (hwraps 3 _ rfl).1 hunpolled⟩

end Family
end Progress
end LanguageClient
