import LanguageClient.Proofs.Session.Reactions

/-!
# Subscribers of a store

Any number of subscribers follow one store.  Whoever takes its announcements is told the newest of
what was updated since the last time, and how many older updates are lost.  Whoever has lost none and
reads every announced file anew has a copy of everything that was updated since it subscribed.

* `Subscriber`, `Readership` — a subscriber with its copies, and a store with its subscribers.
* `Readership.Event`, `Readership.run` — files are updated, subscribers come and take announcements.
* `Readership.store_run` — the store after a run, from the updates alone.
* `Readership.HasUnread` — what a subscriber still has to be told, and what its copies are worth.
* **`Readership.hasUnread_step`**, `Readership.hasUnread_run` — every event keeps that.
* **`Readership.subscribers_are_told`** — what every subscriber is told, and what it then knows.
-/

namespace LanguageClient

/-- A subscriber that reads every announced file anew. -/
structure Subscriber where
  subscription : Subscription
  /-- How many updates it has been told that it lost. -/
  missed : Nat := 0
  /-- The file of a uri, as it was read last. -/
  copies : String → Option VirtualFile := fun _ => none

/-- What a subscriber does with what it is told. -/
def Subscriber.drain (subscriber : Subscriber) (store : VirtualStore) : Subscriber :=
  match store.drain subscriber.subscription with
  | (missed, uris, subscription) =>
      { subscription
        missed := subscriber.missed + missed
        copies := fun uri => if uri ∈ uris then store.get? uri else subscriber.copies uri }

/-- A store and its subscribers, which are known by numbers. -/
structure Readership where
  store : VirtualStore := {}
  subscribers : Nat → Option Subscriber := fun _ => none

namespace Readership

/-- What happens to a store and its subscribers. -/
inductive Event where
  /-- A file is updated. -/
  | set (file : VirtualFile)
  /-- A subscriber comes, or begins anew. -/
  | subscribe (name : Nat)
  /-- A subscriber takes what was announced. -/
  | drain (name : Nat)

/-- The subscribers after one of them has changed. -/
def update (r : Readership) (name : Nat) (subscriber? : Option Subscriber) : Readership :=
  { r with subscribers := fun other => if other = name then subscriber? else r.subscribers other }

/-- What an event does. -/
def step (r : Readership) : Event → Readership
  | .set file => { r with store := r.store.keep file }
  | .subscribe name => r.update name (some { subscription := r.store.subscribe })
  | .drain name => r.update name ((r.subscribers name).map (Subscriber.drain · r.store))

/-- A store and its subscribers after some events. -/
def run (r : Readership) (events : List Event) : Readership := events.foldl step r

/-- What a subscriber is told when it takes the announcements: how many updates are lost, and the
uris of the others. -/
def news? (r : Readership) (name : Nat) : Option (Nat × List String) :=
  (r.subscribers name).map fun subscriber =>
    match r.store.drain subscriber.subscription with
    | (missed, uris, _) => (missed, uris)

/-- The files that events bring, in order. -/
def files (events : List Event) : List VirtualFile :=
  events.filterMap fun
    | .set file => some file
    | _ => none

/-- The uris that events announce, in order. -/
def uris (events : List Event) : List String := (files events).map VirtualFile.uri

/-- Whether an event is about a subscriber. -/
def Event.isAbout (name : Nat) : Event → Bool
  | set _ => false
  | subscribe other => other = name
  | drain other => other = name

variable {r : Readership} {name : Nat} {subscriber : Subscriber} {changed unread : List String}

theorem run_append (r : Readership) (past later : List Event) :
    r.run (past ++ later) = (r.run past).run later := List.foldl_append

theorem files_append (past later : List Event) : files (past ++ later) = files past ++ files later :=
  List.filterMap_append

theorem uris_append (past later : List Event) : uris (past ++ later) = uris past ++ uris later := by
  rw [uris, files_append, List.map_append]
  rfl

theorem uris_cons (event : Event) (later : List Event) :
    uris (event :: later) = uris [event] ++ uris later := uris_append [event] later

/-! ### The store -/

/-- The store depends on the updates alone. -/
theorem store_run (r : Readership) (events : List Event) :
    (r.run events).store = (files events).foldl VirtualStore.keep r.store := by
  induction events generalizing r with
  | nil => rfl
  | cons event rest ih =>
      have hrun : (r.run (event :: rest)).store = ((r.step event).run rest).store := rfl
      rw [hrun, ih]
      cases event <;> rfl

/-- An updated file is in the store, as it was updated then or later. -/
theorem get?_of_set (r : Readership) (past later : List Event) (file : VirtualFile) :
    ∃ latest ∈ files (.set file :: later), latest.uri = file.uri ∧
      (r.run (past ++ .set file :: later)).store.get? file.uri = some latest := by
  have hfile : file ∈ (files (.set file :: later)).filter fun other => other.uri = file.uri :=
    List.mem_filter.mpr ⟨List.mem_cons_self, by simp⟩
  cases hlast : ((files (.set file :: later)).filter fun other => other.uri = file.uri).getLast? with
  | none =>
      rw [List.getLast?_eq_none_iff.mp hlast] at hfile
      cases hfile
  | some latest =>
      obtain ⟨hmem, huri⟩ := List.mem_filter.mp (List.mem_of_getLast? hlast)
      refine ⟨latest, hmem, by simpa using huri, ?_⟩
      rw [run_append, store_run, VirtualStore.get?_foldl_keep, hlast]
      rfl

/-! ### Followers -/

/-- A subscriber has still to be told of some updates, in order; and as long as it has lost none, its
copies of everything else that was changed are up to date. -/
structure HasUnread (r : Readership) (name : Nat) (subscriber : Subscriber)
    (changed unread : List String) : Prop where
  subscribed : r.subscribers name = some subscriber
  waiting : r.store.updates.toList.drop subscriber.subscription.position = unread
  bounded : subscriber.subscription.position ≤ r.store.updates.size
  copies : subscriber.missed = 0 → ∀ uri ∈ changed, uri ∈ unread ∨
    subscriber.copies uri = r.store.get? uri

/-- What a subscriber is told: the newest updates that are kept, and how many are lost. -/
theorem drain_of_hasUnread (h : r.HasUnread name subscriber changed unread) :
    r.store.drain subscriber.subscription =
      (unread.length - 64, unread.drop (unread.length - 64), r.store.subscribe) := by
  have hunread : (r.store.updates.extract subscriber.subscription.position
      r.store.updates.size).toList = unread := by
    rw [Array.toList_extract, List.extract_eq_take_drop, ← h.waiting]
    refine List.take_of_length_le (Nat.le_of_eq ?_)
    rw [List.length_drop, Array.length_toList]
  rw [VirtualStore.drain, hunread]
  rfl

theorem hasUnread_subscribe (r : Readership) (name : Nat) :
    (r.step (.subscribe name)).HasUnread name { subscription := r.store.subscribe } [] [] where
  subscribed := if_pos rfl
  waiting := List.drop_of_length_le (Nat.le_of_eq Array.length_toList)
  bounded := Nat.le_refl _
  copies _ _ h := by cases h

/-- After a file was updated, it has to be told. -/
theorem hasUnread_set (h : r.HasUnread name subscriber changed unread) (file : VirtualFile) :
    (r.step (.set file)).HasUnread name subscriber (changed ++ [file.uri])
      (unread ++ [file.uri]) where
  subscribed := h.subscribed
  waiting := by
    have hupdates : (r.step (.set file)).store.updates.toList =
        r.store.updates.toList ++ [file.uri] := Array.toList_push
    rw [hupdates, List.drop_append_of_le_length (by simpa using h.bounded), h.waiting]
  bounded := by
    have hsize : (r.step (.set file)).store.updates.size = r.store.updates.size + 1 :=
      Array.size_push _
    have hbounded := h.bounded
    omega
  copies hmissed uri huri := by
    by_cases hsame : file.uri = uri
    · exact .inl (by simp [hsame])
    · have hget : (r.step (.set file)).store.get? uri = r.store.get? uri :=
        (VirtualStore.get?_keep r.store file uri).trans (if_neg hsame)
      have hchanged : uri ∈ changed := by simpa [Ne.symm hsame] using huri
      rw [hget, List.mem_append]
      exact (h.copies hmissed uri hchanged).imp_left .inl

/-- After the announcements are taken nothing has to be told, and every copy is up to date unless
something is lost. -/
theorem hasUnread_drain (h : r.HasUnread name subscriber changed unread) :
    (r.step (.drain name)).HasUnread name (subscriber.drain r.store) changed [] where
  subscribed := by
    have hself : (r.step (.drain name)).subscribers name =
        (r.subscribers name).map (Subscriber.drain · r.store) := if_pos rfl
    rw [hself, h.subscribed]
    rfl
  waiting := by
    rw [Subscriber.drain, drain_of_hasUnread h]
    exact List.drop_of_length_le (Nat.le_of_eq Array.length_toList)
  bounded := by
    rw [Subscriber.drain, drain_of_hasUnread h]
    exact Nat.le_refl _
  copies hmissed uri huri := by
    rw [Subscriber.drain, drain_of_hasUnread h] at hmissed ⊢
    dsimp only at hmissed ⊢
    -- Nothing is lost, so everything that had to be told is read.
    obtain ⟨hbefore, hkept⟩ : subscriber.missed = 0 ∧ unread.length - 64 = 0 := by omega
    rw [hkept, List.drop_zero]
    refine .inr ?_
    split
    · rfl
    · rename_i hunread
      exact (h.copies hbefore uri huri).resolve_left hunread

/-- What happens to other subscribers does not matter. -/
theorem hasUnread_update {other : Nat} (h : r.HasUnread name subscriber changed unread)
    (hother : name ≠ other) (subscriber? : Option Subscriber) :
    (r.update other subscriber?).HasUnread name subscriber changed unread :=
  ⟨(if_neg hother).trans h.subscribed, h.waiting, h.bounded, h.copies⟩

/-- **Every event keeps what a subscriber still has to be told**, and what its copies are worth,
unless the subscriber begins anew. -/
theorem hasUnread_step (h : r.HasUnread name subscriber changed unread) {event : Event}
    (hevent : event ≠ .subscribe name) : ∃ next : Subscriber,
      (r.step event).HasUnread name next (changed ++ uris [event])
        (if event.isAbout name then [] else unread ++ uris [event]) := by
  cases event with
  | set file => exact ⟨subscriber, hasUnread_set h file⟩
  | subscribe other =>
      have hother : name ≠ other := by
        rintro rfl
        exact hevent rfl
      refine ⟨subscriber, ?_⟩
      simpa [step, Event.isAbout, Ne.symm hother, uris, files] using hasUnread_update h hother _
  | drain other =>
      by_cases hother : name = other
      · subst hother
        refine ⟨subscriber.drain r.store, ?_⟩
        simpa [Event.isAbout, uris, files] using hasUnread_drain h
      · refine ⟨subscriber, ?_⟩
        simpa [step, Event.isAbout, Ne.symm hother, uris, files] using hasUnread_update h hother _

theorem hasUnread_run (h : r.HasUnread name subscriber changed unread) {events : List Event}
    (hevents : .subscribe name ∉ events) : ∃ (next : Subscriber) (left : List String),
      (r.run events).HasUnread name next (changed ++ uris events) left ∧
        ((∀ event ∈ events, event.isAbout name = false) → left = unread ++ uris events) := by
  induction events generalizing r subscriber changed unread with
  | nil => exact ⟨subscriber, unread, by simpa [run, uris, files] using h, by simp [uris, files]⟩
  | cons event rest ih =>
      rw [List.mem_cons, not_or] at hevents
      obtain ⟨first, hfirst⟩ := hasUnread_step h (Ne.symm hevents.1)
      obtain ⟨next, left, hnext, hleft⟩ := ih hfirst hevents.2
      refine ⟨next, left, ?_, ?_⟩
      · rw [uris_cons, ← List.append_assoc]
        exact hnext
      · intro hnone
        rw [List.forall_mem_cons] at hnone
        rw [hleft hnone.2, if_neg (by simp [hnone.1]), uris_cons event rest, List.append_assoc]

/-- Whoever has subscribed follows the store ever after. -/
theorem exists_hasUnread (r : Readership) {past : List Event} (h : .subscribe name ∈ past) :
    ∃ (subscriber : Subscriber) (changed unread : List String),
      (r.run past).HasUnread name subscriber changed unread := by
  induction past using List.reverseRecOn with
  | nil => cases h
  | append_singleton past event ih =>
      rw [run_append]
      by_cases hevent : event = .subscribe name
      · subst hevent
        exact ⟨_, _, _, hasUnread_subscribe _ name⟩
      · have hpast : .subscribe name ∈ past := by simpa [Ne.symm hevent] using h
        obtain ⟨subscriber, changed, unread, hunread⟩ := ih hpast
        obtain ⟨next, hnext⟩ := hasUnread_step hunread hevent
        exact ⟨next, _, _, hnext⟩

/-- When a subscriber subscribes or takes the announcements, nothing is left to be told. -/
theorem hasUnread_mark (r : Readership) (past : List Event) {mark : Event}
    (hmark : mark = .subscribe name ∨ mark = .drain name ∧ .subscribe name ∈ past) :
    ∃ (subscriber : Subscriber) (changed : List String),
      ((r.run past).step mark).HasUnread name subscriber changed [] := by
  rcases hmark with rfl | ⟨rfl, hpast⟩
  · exact ⟨_, _, hasUnread_subscribe _ name⟩
  · obtain ⟨subscriber, changed, unread, hunread⟩ := exists_hasUnread r hpast
    exact ⟨_, _, hasUnread_drain hunread⟩

/-- **What subscribers are told, and what they know.**  A store is updated, and any number of
subscribers come and take its announcements.  Since a subscriber subscribed or took them last, some
files have been updated: when it takes the announcements, it is told the newest 64 of their uris in
order, and how many older ones are lost.  Every file whose update is announced is in the store, as it
was updated then or later.  And when a subscriber that has never lost an update has taken the
announcements and read every announced file, its copy of every file that was updated since it
subscribed is what the store has. -/
theorem subscribers_are_told (store : VirtualStore) (name : Nat) (past later : List Event) :
    (∀ mark : Event, mark = .subscribe name ∨ mark = .drain name ∧ .subscribe name ∈ past →
      (∀ event ∈ later, event.isAbout name = false) →
        let told := uris later
        (run { store } (past ++ mark :: later)).news? name =
          some (told.length - 64, told.drop (told.length - 64))) ∧
    (∀ (earlier since : List Event) (file : VirtualFile), later = earlier ++ .set file :: since →
      ∃ latest ∈ files (.set file :: since), latest.uri = file.uri ∧
        (run { store } (past ++ later)).store.get? file.uri = some latest) ∧
    (.subscribe name ∉ later →
      let r := run { store } (past ++ .subscribe name :: later ++ [.drain name])
      ∃ subscriber : Subscriber, r.subscribers name = some subscriber ∧
        (subscriber.missed = 0 → ∀ file ∈ files later,
          subscriber.copies file.uri = r.store.get? file.uri)) := by
  refine ⟨?_, ?_, ?_⟩
  · intro mark hmark hnone told
    have hlater : .subscribe name ∉ later := by
      intro hmem
      simpa [Event.isAbout] using hnone _ hmem
    -- A subscription and a drain leave the subscriber alike: with nothing unread.
    obtain ⟨subscriber, changed, hunread⟩ := hasUnread_mark { store } past hmark
    obtain ⟨next, left, hnext, hleft⟩ := hasUnread_run hunread hlater
    rw [List.nil_append] at hleft
    rw [hleft hnone] at hnext
    rw [run_append]
    change (((run { store } past).step mark).run later).news? name = _
    rw [news?, hnext.subscribed, Option.map_some, drain_of_hasUnread hnext]
  · rintro earlier since file rfl
    rw [← List.append_assoc]
    exact get?_of_set _ _ since file
  · intro hlater r
    obtain ⟨next, left, hnext, -⟩ :=
      hasUnread_run (hasUnread_subscribe (run { store } past) name) hlater
    have hr : r = (((run { store } past).step (.subscribe name)).run later).step (.drain name) := by
      change run { store } (past ++ .subscribe name :: later ++ [.drain name]) = _
      rw [run_append, run_append]
      rfl
    have hdrained := hasUnread_drain hnext
    rw [← hr] at hdrained
    refine ⟨_, hdrained.subscribed, fun hmissed file hfile => ?_⟩
    have hchanged : file.uri ∈ [] ++ uris later := List.mem_map_of_mem hfile
    exact (hdrained.copies hmissed file.uri hchanged).resolve_left List.not_mem_nil

/-- An update of a file. -/
def updateOf (uri content : String) : Event := .set ⟨uri, content, ""⟩

/-- A subscriber loses two of 66 updates and is told so.  Another one takes the announcements in time,
and its copy is the file as it was updated last. -/
theorem lost_updates_are_told_and_the_last_one_is_known :
    (run {} ([] ++ .subscribe 0 :: List.replicate 66 (updateOf "a" "1"))).news? 0 =
        some (2, List.replicate 64 "a") ∧
      (∃ latest : VirtualFile, latest.uri = "a" ∧
        (run {} ([.subscribe 0] ++ ([] ++ updateOf "a" "1" :: [updateOf "b" "2"]))).store.get? "a" =
          some latest) ∧
      ∃ subscriber : Subscriber,
        (run {} ([.subscribe 0] ++ .subscribe 1 :: [updateOf "a" "1", .drain 1, .drain 0,
          updateOf "a" "2"] ++ [.drain 1])).subscribers 1 = some subscriber ∧
        subscriber.missed = 0 ∧ subscriber.copies "a" = some ⟨"a", "2", ""⟩ := by
  refine ⟨?_, ?_, ?_⟩
  · have htold := (subscribers_are_told {} 0 [] (List.replicate 66 (updateOf "a" "1"))).1
      (.subscribe 0) (.inl rfl) fun event hevent => by rw [List.eq_of_mem_replicate hevent]; rfl
    exact htold
  · obtain ⟨latest, -, huri, hget⟩ := (subscribers_are_told {} 0 [.subscribe 0]
      ([] ++ updateOf "a" "1" :: [updateOf "b" "2"])).2.1 [] [updateOf "b" "2"] ⟨"a", "1", ""⟩ rfl
    exact ⟨latest, huri, hget⟩
  · obtain ⟨subscriber, hsubscriber, hcopies⟩ := (subscribers_are_told {} 1 [.subscribe 0]
      [updateOf "a" "1", .drain 1, .drain 0, updateOf "a" "2"]).2.2 (by simp [updateOf])
    have hmissed : ((run {} ([.subscribe 0] ++ .subscribe 1 :: [updateOf "a" "1", .drain 1,
        .drain 0, updateOf "a" "2"] ++ [.drain 1])).subscribers 1).map Subscriber.missed =
          some 0 := by decide +kernel
    rw [hsubscriber, Option.map_some, Option.some.injEq] at hmissed
    exact ⟨subscriber, hsubscriber, hmissed,
      (hcopies hmissed ⟨"a", "1", ""⟩ List.mem_cons_self).trans (by decide +kernel)⟩

end Readership
end LanguageClient
