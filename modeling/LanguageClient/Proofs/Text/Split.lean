import LanguageClient.Text.Blank
import Mathlib.Data.List.TakeWhile

/-!
# Splitting a text

A text is split at the first occurrence of a character: nothing in front of it is that character, and
a text without it is not split.
-/

namespace LanguageClient
namespace Text

variable {c : Char} {s : String}

/-- A text splits at the first occurrence of a character. -/
theorem splitOnFirst_eq_some_iff {before after : String} :
    splitOnFirst (· = c) s = some (before, after) ↔
      s = before ++ String.singleton c ++ after ∧ c ∉ before.toList := by
  unfold splitOnFirst
  constructor
  · intro h
    split at h
    · cases h
    · rename_i first rest hrest
      simp only [Option.some.injEq, Prod.mk.injEq] at h
      obtain ⟨rfl, rfl⟩ := h
      have hfirst : first = c := by
        have hhead := List.head?_dropWhile_not (fun d => !decide (d = c)) s.toList
        rw [hrest] at hhead
        simpa using hhead
      have hsplit :=
        List.takeWhile_append_dropWhile (p := fun d => !decide (d = c)) (l := s.toList)
      rw [hrest, hfirst] at hsplit
      constructor
      · apply String.toList_injective
        simpa using hsplit.symm
      · rw [String.toList_ofList]
        intro hmem
        simpa using List.mem_takeWhile_imp hmem
  · rintro ⟨rfl, hnot⟩
    have hbefore : ∀ d ∈ before.toList, (!decide (d = c)) = true := by
      intro d hd
      have hne : d ≠ c := fun heq => hnot (heq ▸ hd)
      simpa using hne
    have htext : (before ++ String.singleton c ++ after).toList =
        before.toList ++ c :: after.toList := by simp
    rw [htext, List.dropWhile_append_of_pos hbefore, List.takeWhile_append_of_pos hbefore]
    simp

/-- A text without the character is not split. -/
theorem splitOnFirst_eq_none_iff : splitOnFirst (· = c) s = none ↔ c ∉ s.toList := by
  unfold splitOnFirst
  constructor
  · intro h hmem
    split at h
    · rename_i hnone
      rw [List.dropWhile_eq_nil_iff] at hnone
      simpa using hnone c hmem
    · cases h
  · intro h
    have hnone : s.toList.dropWhile (fun d => !decide (d = c)) = [] := by
      rw [List.dropWhile_eq_nil_iff]
      intro d hd
      have hne : d ≠ c := fun heq => h (heq ▸ hd)
      simpa using hne
    rw [hnone]

end Text
end LanguageClient
