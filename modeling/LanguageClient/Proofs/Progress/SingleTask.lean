import LanguageClient.Proofs.Progress.Balance

/-!
# Operations of one task as a family

An operation whose inner ones run one after the other is a family in which a wrap is polled as soon as
it is there, and ends before the next one comes.  It makes the same calls, and what it reports is what
its wrap returns.

* `Progress.Operation.opened_run` — an operation leaves the open indicators as they were.
* `Progress.Family.AddsFinished` — a family comes to another one that has made some calls more, and
  whose new wraps are over.
* **`Progress.Operation.addsFinished_run`** — every operation is a family whose wraps are over.
-/

namespace LanguageClient
namespace Progress

/-! ### An operation leaves the open indicators as they were -/

namespace Operation

mutual

theorem opened_run (task : Nat) (progress : Progress) :
    ∀ operation : Operation, (run task progress operation).1.opened = progress.opened
  | .wrap title location inner ending => by
      rw [run]
      split
      · rfl
      · have hinner := opened_runAll task (progress.enter task title location).1 inner
        rw [enter] at hinner ⊢
        simp [leave, hinner]

theorem opened_runAll (task : Nat) (progress : Progress) :
    ∀ inner : List Operation, (runAll task progress inner).1.opened = progress.opened
  | [] => by rw [runAll]
  | operation :: rest => by
      rw [runAll]
      exact (opened_runAll task (run task progress operation).1 rest).trans
        (opened_run task progress operation)

end

end Operation

namespace Family

variable {f g k : Family Report} {w : Nat} {around : List Nat} {new later : List (Wrap Report)}
  {calls further : List HostCall} {reports others : List Report}

/-! ### One family after another -/

/-- What a wrap that is over reports. -/
def report (wrap : Wrap Report) : Report := wrap.stage.output?.getD .dropped

/-- A family with some wraps more inside the given ones, which have made the given calls and are over;
what those directly inside report. -/
structure AddsFinished (f g : Family Report) (around : List Nat) (new : List (Wrap Report))
    (calls : List HostCall) (reports : List Report) : Prop where
  wraps : g.wraps = f.wraps ++ new
  ended : ∀ wrap ∈ new, wrap.stage.isOver
  inside : ∀ wrap ∈ new, around <:+ wrap.around
  journal : g.journal.map Prod.snd = f.journal.map Prod.snd ++ calls
  opened : g.progress.opened = f.progress.opened
  reports : (new.filter fun wrap => wrap.around = around).map report = reports

theorem addsFinished_refl (f : Family Report) (around : List Nat) :
    AddsFinished f f around [] [] [] where
  wraps := (List.append_nil _).symm
  ended _ h := by cases h
  inside _ h := by cases h
  journal := (List.append_nil _).symm
  opened := rfl
  reports := rfl

theorem addsFinished_trans (h : AddsFinished f g around new calls reports)
    (h' : AddsFinished g k around later further others) :
    AddsFinished f k around (new ++ later) (calls ++ further) (reports ++ others) where
  wraps := by rw [h'.wraps, h.wraps, List.append_assoc]
  ended wrap hwrap := (List.mem_append.mp hwrap).elim (h.ended wrap) (h'.ended wrap)
  inside wrap hwrap := (List.mem_append.mp hwrap).elim (h.inside wrap) (h'.inside wrap)
  journal := by rw [h'.journal, h.journal, List.append_assoc]
  opened := h'.opened.trans h.opened
  reports := by rw [List.filter_append, List.map_append, h.reports, h'.reports]

/-- Where nothing is left inside a wrap, nothing is dropped with it. -/
theorem dropInside_eq_self (hinside : ∀ j, w ∈ f.around j → ¬ f.isAlive j) (n : Nat) :
    dropInside w n f = f := by
  induction n with
  | zero => rfl
  | succ n ih =>
      have hkeeps : (f.isAlive n && (f.around n).contains w) = false := by
        rw [Bool.and_eq_false_iff, Bool.eq_false_iff, Bool.eq_false_iff, Ne, Ne, List.contains_iff_mem]
        by_cases halive : f.isAlive n
        · exact .inr fun hn => hinside n hn halive
        · exact .inl halive
      rw [dropInside, hkeeps]
      exact ih

/-- The wraps around one that is put into an operation. -/
def chain (f : Family Report) (owner? : Option Nat) : List Nat :=
  owner?.elim [] fun owner => owner :: f.around owner

theorem step_wrap {owner? : Option Nat} (howner : ∀ owner ∈ owner?, f.isRunning owner)
    (title : String) (location : ProgressLocation) :
    f.step (.wrap owner? title location) = f.add title location (f.chain owner?) := by
  cases owner? with
  | none => rfl
  | some owner => rw [step, if_pos (isAlive_of_isRunning (howner owner rfl)), chain, Option.elim_some]

theorem isRunning_of_mem_chain (h : f.Sound) {owner? : Option Nat}
    (howner : ∀ owner ∈ owner?, f.isRunning owner) : ∀ i ∈ f.chain owner?, f.isRunning i := by
  cases owner? with
  | none => intro i hi; cases hi
  | some owner =>
      intro i hi
      rcases List.mem_cons.mp hi with rfl | hi
      · exact howner i rfl
      · exact h.running hi (howner owner rfl)

theorem isRunning_congr (h : g.wraps[w]? = f.wraps[w]?) : g.isRunning w = f.isRunning w := by
  rw [isRunning, isRunning, stage?, stage?, h]

theorem around_congr (h : g.wraps[w]? = f.wraps[w]?) : g.around w = f.around w := by
  rw [Family.around, Family.around, h]

/-- What was there stays as it was. -/
theorem getElem?_of_addsFinished (h : AddsFinished f g around new calls reports)
    (hw : w < f.wraps.length) : g.wraps[w]? = f.wraps[w]? := by
  rw [h.wraps, List.getElem?_append_left hw]

/-! ### One operation -/

/-- A wrap that ends when everything inside it is over. -/
theorem finish_eq_close (h : f.Sound) (hlater : ∀ j, w < j → ¬ f.isAlive j)
    (output? : Option Report) : f.finish w output? = f.close w output? := by
  rw [finish, dropInside_eq_self fun j hj => hlater j (h.before hj)]

/-- An operation that is dropped before it first runs. -/
theorem addsFinished_neverRuns (h : f.Sound) {owner? : Option Nat}
    (howner : ∀ owner ∈ owner?, f.isRunning owner) (title : String) (location : ProgressLocation) :
    ∃ events new, (f.run events).progress.nextId = f.progress.nextId ∧
      AddsFinished f (f.run events) (f.chain owner?) new [] [.dropped] := by
  set n := f.wraps.length with hn
  set around := f.chain owner? with haround
  have hadd := step_wrap howner title location
  have hsound : (f.add title location around).Sound := hadd ▸ sound_step h _
  have hwrap : (f.add title location around).wraps[n]? = some { title, location, around } := by
    rw [getElem?_add, if_pos rfl]
  have hfresh := stage?_of_wrap hwrap
  have halive := isAlive_iff.mpr (.inl hfresh)
  have hlater : ∀ j, n < j → ¬ (f.add title location around).isAlive j := by
    intro j hj
    rw [isAlive, stage?_add, if_neg (by omega), stage?, List.getElem?_eq_none (by omega)]
    simp
  refine ⟨[.wrap owner? title location, .drop n],
    [{ title, location, around, stage := .ended none none }], ?_⟩
  have hrun : f.run [.wrap owner? title location, .drop n] =
      (f.add title location around).close n none := by
    rw [run, List.foldl_cons, hadd, List.foldl_cons, List.foldl_nil, step, if_pos halive,
      finish_eq_close hsound hlater]
  rw [hrun]
  have hwraps := wraps_close hwrap none
  rcases progress_close hsound halive none with ⟨-, hprogress, hjournal⟩ | ⟨id, hrunning, -⟩
  · refine ⟨by rw [hprogress]; rfl, ?_, ?_, ?_, ?_, ?_, ?_⟩
    · rw [hwraps, add, hn]
      simp [Stage.id?]
    · simp [Stage.isOver]
    · simp
    · rw [hjournal]
      simp [add]
    · rw [hprogress]
      rfl
    · simp [report, Stage.output?]
  · rw [hfresh] at hrunning
    cases hrunning

/-- A family with one wrap more, which has been polled. -/
def begun (f : Family Report) (title : String) (location : ProgressLocation) (around : List Nat) :
    Family Report :=
  { progress :=
      { nextId := f.progress.nextId + 1
        opened := (f.wraps.length, f.progress.nextId) :: f.progress.opened }
    wraps := f.wraps ++ [{ title, location, around, stage := .running f.progress.nextId }]
    journal :=
      f.journal ++ [(f.wraps.length, .beginProgress f.progress.nextId title location)] }

theorem run_begin (h : f.Sound) {owner? : Option Nat}
    (howner : ∀ owner ∈ owner?, f.isRunning owner) (title : String) (location : ProgressLocation) :
    f.run [.wrap owner? title location, .poll f.wraps.length] =
      f.begun title location (f.chain owner?) := by
  have hadd := step_wrap howner title location
  have hwrap : (f.add title location (f.chain owner?)).wraps[f.wraps.length]? =
      some { title, location, around := f.chain owner? } := by
    rw [getElem?_add, if_pos rfl]
  have hcan : (f.add title location (f.chain owner?)).canBegin f.wraps.length := by
    refine canBegin_iff.mpr ⟨stage?_of_wrap hwrap, fun i hi => ?_⟩
    rw [around_add, if_pos rfl] at hi
    obtain ⟨id, hid⟩ := isRunning_iff.mp (isRunning_of_mem_chain h howner i hi)
    exact isRunning_iff.mpr ⟨id, by rw [stage?_add, if_neg (Nat.ne_of_lt (lt_of_stage? hid)), hid]⟩
  rw [run, List.foldl_cons, hadd, List.foldl_cons, List.foldl_nil, step, if_pos hcan, enter_eq hwrap,
    begun]
  simp [add]

/-- An operation that ends after its inner ones. -/
theorem addsFinished_finish {title : String} {location : ProgressLocation} (hg : g.Sound)
    (hadds : AddsFinished (f.begun title location around) g (f.wraps.length :: around) new calls
      reports)
    (output? : Option Report) :
    (g.finish f.wraps.length output?).progress.nextId = g.progress.nextId ∧
      ∃ new, AddsFinished f (g.finish f.wraps.length output?) around new
        (.beginProgress f.progress.nextId title location :: calls ++
          [.endProgress f.progress.nextId]) [output?.getD .dropped] := by
  have hlength : (f.begun title location around).wraps.length = f.wraps.length + 1 := by
    simp [begun]
  have hwrap : g.wraps[f.wraps.length]? =
      some { title, location, around, stage := .running f.progress.nextId } := by
    rw [getElem?_of_addsFinished hadds (by omega), begun]
    simp
  have hrunning := stage?_of_wrap hwrap
  have halive := isAlive_iff.mpr (.inr ⟨_, hrunning⟩)
  have hlater : ∀ j, f.wraps.length < j → ¬ g.isAlive j := by
    intro j hj hjalive
    obtain ⟨wrap, hjwrap, hnot⟩ := exists_wrap_of_isAlive hjalive
    rw [hadds.wraps, List.getElem?_append_right (by omega)] at hjwrap
    simp [hadds.ended wrap (List.mem_of_getElem? hjwrap)] at hnot
  rw [finish_eq_close hg hlater]
  have hwraps := wraps_close hwrap output?
  rcases progress_close hg halive output? with ⟨hfresh, -⟩ | ⟨id, hid, hprogress, hjournal⟩
  · rw [hrunning] at hfresh
    cases hfresh
  · obtain rfl : f.progress.nextId = id := by simpa using hrunning.symm.trans hid
    refine ⟨by rw [hprogress],
      { title, location, around, stage := .ended (some f.progress.nextId) output? } :: new,
      ?_, ?_, ?_, ?_, ?_, ?_⟩
    · rw [hwraps, hadds.wraps, begun]
      simp [Stage.id?]
    · exact List.forall_mem_cons.mpr ⟨rfl, hadds.ended⟩
    · refine List.forall_mem_cons.mpr ⟨List.suffix_refl _, fun wrap hmem => ?_⟩
      exact (List.suffix_cons _ _).trans (hadds.inside wrap hmem)
    · rw [hjournal, List.map_append, hadds.journal, begun]
      simp
    · rw [hprogress, hadds.opened]
      simp [begun]
    · have hnone : (new.filter fun wrap => wrap.around = around) = [] := by
        refine List.filter_eq_nil_iff.mpr fun wrap hmem heq => ?_
        have hsuffix := (hadds.inside wrap hmem).length_le
        rw [of_decide_eq_true heq, List.length_cons] at hsuffix
        omega
      rw [List.filter_cons_of_pos (by simp), hnone]
      rfl

end Family

/-! ### Every operation -/

/-- The output of an operation that ends like this, if it comes to one. -/
def Ending.output? (reports : List Report) : Ending → Option Report
  | succeeds => some (.succeeded reports)
  | fails => some .failed
  | hangs => none
  | neverRuns => none

theorem Ending.getD_output? (reports : List Report) (ending : Ending) :
    (ending.output? reports).getD .dropped = ending.report reports := by
  cases ending <;> rfl

/-- An operation that runs comes to its output or is dropped. -/
theorem Family.exists_finish {f : Family Report} {w : Nat} (h : f.isRunning w)
    (output? : Option Report) : ∃ event, f.step event = f.finish w output? := by
  cases output? with
  | none => exact ⟨.drop w, by rw [step, if_pos (isAlive_of_isRunning h)]⟩
  | some output => exact ⟨.settle w output, by rw [step, if_pos h]⟩

namespace Operation

open Family

/-- An operation that runs makes its inner operations' calls between its own. -/
theorem run_wrap (task : Nat) (progress : Progress) (title : String) (location : ProgressLocation)
    (inner : List Operation) {ending : Ending} (hruns : ending ≠ .neverRuns) :
    run task progress (.wrap title location inner ending) =
      let (finished, reports, calls) :=
        runAll task (progress.enter task title location).1 inner
      ({ nextId := finished.nextId, opened := progress.opened }, ending.report reports,
        .beginProgress progress.nextId title location :: calls ++ [.endProgress progress.nextId]) := by
  have hopened := opened_runAll task (progress.enter task title location).1 inner
  rw [run, if_neg hruns]
  rw [enter] at hopened ⊢
  simp [leave, hopened]

mutual

/-- **Every operation is a family.**  Its wrap makes the calls that the operation makes, and
returns what the operation reports. -/
theorem addsFinished_run (task : Nat) (progress : Progress) {f : Family Report} (h : f.Sound)
    (hnext : f.progress.nextId = progress.nextId) {owner? : Option Nat}
    (howner : ∀ owner ∈ owner?, f.isRunning owner) : ∀ operation : Operation, ∃ events new,
      (f.run events).progress.nextId = (run task progress operation).1.nextId ∧
        AddsFinished f (f.run events) (f.chain owner?) new (run task progress operation).2.2
          [(run task progress operation).2.1]
  | .wrap title location inner ending => by
      by_cases hruns : ending = .neverRuns
      · rw [run, if_pos hruns]
        obtain ⟨events, new, hsame, hadds⟩ := addsFinished_neverRuns h howner title location
        exact ⟨events, new, hsame.trans hnext, hadds⟩
      · rw [run_wrap task progress title location inner hruns]
        have hbegin := run_begin h howner title location
        set start := f.begun title location (f.chain owner?) with hstart
        set reports := (runAll task (progress.enter task title location).1 inner).2.1
        have hsound : start.Sound := hbegin ▸ sound_run h _
        have hwrap : start.wraps[f.wraps.length]? = some
            { title, location, around := f.chain owner?, stage := .running f.progress.nextId } := by
          simp [hstart, begun]
        have hstage := stage?_of_wrap hwrap
        have hinside : ∀ owner ∈ some f.wraps.length, start.isRunning owner := by
          rintro _ ⟨⟩
          exact isRunning_iff.mpr ⟨_, hstage⟩
        have haround : start.chain (some f.wraps.length) = f.wraps.length :: f.chain owner? := by
          simp [chain, Family.around, hwrap]
        -- The inner operations are carried out while the wrap runs, and it ends after them.
        obtain ⟨events, new, hsame, hadds⟩ :=
          addsFinished_runAll task (progress.enter task title location).1
          hsound (by rw [hstart, begun, enter, hnext]) hinside inner
        rw [haround] at hadds
        have hkept := getElem?_of_addsFinished hadds (lt_of_stage? hstage)
        obtain ⟨hlast, all, hall⟩ := addsFinished_finish (sound_run hsound events) hadds
          (ending.output? reports)
        obtain ⟨event, hevent⟩ := exists_finish
          ((isRunning_congr hkept).trans (hinside _ rfl)) (ending.output? reports)
        refine ⟨[.wrap owner? title location, .poll f.wraps.length] ++ events ++ [event], all, ?_⟩
        rw [run_append, run_append, hbegin]
        change ((step _ event).progress.nextId = _) ∧ AddsFinished f (step _ event) _ _ _ _
        rw [hevent]
        rw [Ending.getD_output?, hnext] at hall
        exact ⟨hlast.trans hsame, hall⟩

theorem addsFinished_runAll (task : Nat) (progress : Progress) {f : Family Report} (h : f.Sound)
    (hnext : f.progress.nextId = progress.nextId) {owner? : Option Nat}
    (howner : ∀ owner ∈ owner?, f.isRunning owner) : ∀ inner : List Operation, ∃ events new,
      (f.run events).progress.nextId = (runAll task progress inner).1.nextId ∧
        AddsFinished f (f.run events) (f.chain owner?) new (runAll task progress inner).2.2
          (runAll task progress inner).2.1
  | [] => by
      rw [runAll]
      exact ⟨[], [], hnext, addsFinished_refl f _⟩
  | operation :: rest => by
      obtain ⟨events, new, hsame, hadds⟩ := addsFinished_run task progress h hnext howner operation
      have hkept : ∀ owner ∈ owner?, (f.run events).wraps[owner]? = f.wraps[owner]? := by
        intro owner hmem
        obtain ⟨id, hid⟩ := isRunning_iff.mp (howner owner hmem)
        exact getElem?_of_addsFinished hadds (lt_of_stage? hid)
      have hchain : (f.run events).chain owner? = f.chain owner? := by
        cases owner? with
        | none => rfl
        | some owner => simp [chain, around_congr (hkept owner rfl)]
      obtain ⟨further, later, hlast, hrest⟩ := addsFinished_runAll task
        (run task progress operation).1 (sound_run h events) hsame
        (fun owner hmem => (isRunning_congr (hkept owner hmem)).trans (howner owner hmem)) rest
      rw [hchain, ← run_append] at hrest
      rw [← run_append] at hlast
      rw [runAll]
      exact ⟨events ++ further, new ++ later, hlast, addsFinished_trans hadds hrest⟩

end

end Operation
end Progress
end LanguageClient
