import LanguageClient.Session.Lock

/-!
# The line of the lock

The holder of the lock and those who wait for it form one line.  Asking for the lock adds to its
end, leaving it takes one out, and nobody changes the order of the others.

* `Lock.line` — the holder and those who wait.
* `Lock.Orderly` — nobody is in line twice, and nobody waits for a lock that is free.
* `Lock.line_acquire`, `Lock.line_leave` — the line after somebody asks or leaves.
* `Lock.orderly_acquire`, `Lock.orderly_leave` — both keep the line in order.
-/

namespace LanguageClient
namespace Lock

/-- The holder of the lock and those who wait for it, the first one first. -/
def line (lock : Lock) : List Nat := lock.holder?.toList ++ lock.waiting

/-- A line in which nobody stands twice, of a lock that is not left free while somebody waits. -/
structure Orderly (lock : Lock) : Prop where
  nodup : lock.line.Nodup
  free : lock.holder? = none → lock.waiting = []

theorem orderly_free : ({} : Lock).Orderly := ⟨List.nodup_nil, fun _ => rfl⟩

variable {lock : Lock}

theorem mem_line_of_holder? {k : Nat} (h : lock.holder? = some k) : k ∈ lock.line := by
  simp [line, h]

theorem line_eq_nil (h : lock.Orderly) (hfree : lock.isFree) : lock.line = [] := by
  have hholder : lock.holder? = none := by simpa [isFree] using hfree
  simp [line, hholder, h.free hholder]

/-! ### Asking -/

theorem line_acquire (h : lock.Orderly) (k : Nat) : (lock.acquire k).line = lock.line ++ [k] := by
  unfold acquire
  split
  · rename_i hfree
    rw [line_eq_nil h hfree]
    have hholder : lock.holder? = none := by simpa [isFree] using hfree
    simp [line, h.free hholder]
  · simp [line]

theorem holder?_acquire_of_free (hfree : lock.isFree) (k : Nat) :
    (lock.acquire k).holder? = some k := by simp [acquire, hfree]

theorem holder?_acquire_of_held (hfree : lock.isFree = false) (k : Nat) :
    (lock.acquire k).holder? = lock.holder? := by simp [acquire, hfree]

theorem orderly_acquire (h : lock.Orderly) {k : Nat} (hk : k ∉ lock.line) :
    (lock.acquire k).Orderly where
  nodup := by
    rw [line_acquire h, List.nodup_append]
    refine ⟨h.nodup, by simp, ?_⟩
    intro i hi j hj hij
    rw [List.mem_singleton] at hj
    exact hk (by rwa [← hj, ← hij])
  free := by
    cases hfree : lock.isFree with
    | true => simp [holder?_acquire_of_free hfree]
    | false =>
        rw [holder?_acquire_of_held hfree]
        intro hholder
        simp [isFree, hholder] at hfree

/-! ### Leaving -/

theorem line_release (lock : Lock) : lock.release.line = lock.waiting := by
  cases hwaiting : lock.waiting with
  | nil => simp [line, release, hwaiting]
  | cons k rest => simp [line, release, hwaiting]

theorem line_leave (h : lock.Orderly) (k : Nat) :
    (lock.leave k).line = lock.line.filter (· ≠ k) := by
  unfold leave
  split
  · rename_i hholder
    have hline : lock.line = k :: lock.waiting := by simp [line, hholder]
    have hk : k ∉ lock.waiting := by
      have hnodup := h.nodup
      rw [hline, List.nodup_cons] at hnodup
      exact hnodup.1
    rw [line_release, hline, List.filter_cons_of_neg (by simp)]
    refine (List.filter_eq_self.mpr ?_).symm
    intro i hi
    simpa using fun hik : i = k => hk (hik ▸ hi)
  · rename_i hholder
    cases hother : lock.holder? with
    | none => simp [line, hother]
    | some i =>
        have hne : i ≠ k := fun hik => hholder (by rw [hother, hik])
        simp [line, hother, hne]

theorem orderly_leave (h : lock.Orderly) (k : Nat) : (lock.leave k).Orderly where
  nodup := by
    rw [line_leave h]
    exact h.nodup.filter _
  free := by
    unfold leave
    split
    · intro hholder
      have hnil : lock.waiting = [] := by simpa [release] using hholder
      simp [release, hnil]
    · intro hholder
      simp [h.free hholder]

theorem holder?_leave_of_ne {k i : Nat} (hholder : lock.holder? = some i) (hne : i ≠ k) :
    (lock.leave k).holder? = some i := by
  simp [leave, hholder, hne]

/-- Whoever is not in line can leave without a trace. -/
theorem leave_of_not_mem {k : Nat} (hk : k ∉ lock.line) : lock.leave k = lock := by
  have hholder : lock.holder? ≠ some k := fun h => hk (mem_line_of_holder? h)
  have hwaiting : ∀ i ∈ lock.waiting, i ≠ k := by
    intro i hi hik
    exact hk (List.mem_append_right _ (hik ▸ hi))
  have hfilter : lock.waiting.filter (· ≠ k) = lock.waiting :=
    List.filter_eq_self.mpr fun i hi => by simpa using hwaiting i hi
  unfold leave
  rw [if_neg hholder, hfilter]

end Lock
end LanguageClient
