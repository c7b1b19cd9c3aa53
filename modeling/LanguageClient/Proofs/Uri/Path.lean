import LanguageClient.Uri.Parse
import Mathlib.Data.List.TakeWhile
import Mathlib.Tactic.SplitIfs

/-!
# Paths hold no fragment

Query and fragment end the path of a uri, and what builds the path adds nothing but slashes, colons
and escapes.  So no normalised path holds the sign in front of a fragment, whatever the text of the
uri.

* `Uri.not_mem_addSegment`, `Uri.not_mem_buildPath` — building a path brings no such sign.
* **`Uri.not_mem_path`** — neither does reading the path of a uri.
-/

namespace LanguageClient
namespace Uri

variable {kind : Kind} {path segment text : List Char}

/-! ### Escapes -/

theorem upperHexDigit_ne_hash : ∀ n < 16, upperHexDigit n ≠ '#' := by decide

theorem not_mem_escapeByte (b : UInt8) : '#' ∉ escapeByte b := by
  have hb : b.toNat < 256 := b.toNat_lt
  have hhigh := upperHexDigit_ne_hash (b.toNat / 16) (by omega)
  have hlow := upperHexDigit_ne_hash (b.toNat % 16) (by omega)
  simp [escapeByte, hhigh.symm, hlow.symm]

theorem not_mem_encodeWith (encoded : Char → Bool) (h : '#' ∉ text) :
    '#' ∉ encodeWith encoded text := by
  intro hmem
  obtain ⟨c, hc, hchar⟩ := List.mem_flatMap.mp hmem
  split at hchar
  · obtain ⟨b, -, hbyte⟩ := List.mem_flatMap.mp hchar
    exact not_mem_escapeByte b hbyte
  · exact h (List.mem_singleton.mp hchar ▸ hc)

/-! ### Segments -/

theorem not_mem_upToLastSlash (h : '#' ∉ path) : '#' ∉ upToLastSlash path := by
  intro hmem
  exact h (List.mem_reverse.mp ((List.dropWhile_sublist _).mem (List.mem_reverse.mp hmem)))

theorem not_mem_dropSegment (h : '#' ∉ path) : '#' ∉ dropSegment kind path := by
  unfold dropSegment
  dsimp only
  split
  · exact h
  · exact not_mem_upToLastSlash h

theorem not_mem_addSegment (hpath : '#' ∉ path) (hsegment : '#' ∉ segment) (slash : Bool) :
    '#' ∉ addSegment kind path segment slash := by
  have hclose : '#' ∉ (if slash then ['/'] else [] : List Char) := by
    cases slash <;> decide
  have hslash : ∀ {visible : List Char}, '#' ∉ visible → '#' ∉ visible ++ ['/'] := by
    intro visible hfront
    rw [List.mem_append, not_or]
    exact ⟨hfront, by decide⟩
  unfold addSegment
  dsimp only
  split
  · have hshorter : '#' ∉ path.dropLast := fun hmem => hpath ((List.dropLast_sublist path).mem hmem)
    have hfront : '#' ∉ dropSegment kind
        (if endsWithSlash path && mayDropSlash path then path.dropLast else path) := by
      split
      · exact not_mem_dropSegment hshorter
      · exact not_mem_dropSegment hpath
    generalize dropSegment kind _ = visible at hfront
    split
    · exact hslash hfront
    · exact hfront
  · split
    · split
      · exact hpath
      · exact hslash hpath
    · split
      · have hletter : '#' ∉ segment.take 1 := fun hmem => hsegment (List.mem_of_mem_take hmem)
        simp [hpath, hletter, hclose]
      · have hencoded := not_mem_encodeWith isEncodedInPath hsegment
        simp [hpath, hencoded, hclose]

theorem not_mem_segments (h : '#' ∉ text) : ∀ s ∈ segments kind text, '#' ∉ s.1 := by
  induction text with
  | nil => simp [segments]
  | cons c rest ih =>
      rw [List.mem_cons, not_or] at h
      have hrest := ih h.2
      unfold segments
      split
      · rw [List.forall_mem_cons]
        exact ⟨List.not_mem_nil, hrest⟩
      · split
        · simp [h.1]
        · rename_i first slash others heq
          rw [heq, List.forall_mem_cons] at hrest
          rw [List.forall_mem_cons, List.mem_cons, not_or]
          exact ⟨⟨h.1, hrest.1⟩, hrest.2⟩

/-- The induction is on the segments: each of them extends a path without the sign. -/
theorem not_mem_buildPath {start : List Char} (hstart : '#' ∉ start) (htext : '#' ∉ text) :
    '#' ∉ buildPath kind start text := by
  have hfold : ∀ (parts : List (List Char × Bool)) (path : List Char), '#' ∉ path →
      (∀ s ∈ parts, '#' ∉ s.1) →
        '#' ∉ parts.foldl (fun path s => addSegment kind path s.1 s.2) path := by
    intro parts
    induction parts with
    | nil => exact fun path hpath _ => hpath
    | cons part parts ih =>
        intro path hpath hparts
        rw [List.forall_mem_cons] at hparts
        exact ih _ (not_mem_addSegment hpath hparts.1 part.2) hparts.2
  have hbuilt := hfold (segments kind text) start hstart (not_mem_segments htext)
  unfold buildPath
  dsimp only
  split
  · rw [List.mem_cons, not_or]
    exact ⟨by decide, fun hmem => hbuilt ((List.dropWhile_sublist _).mem hmem)⟩
  · exact hbuilt

/-! ### Uris -/

/-- What stands in front of query and fragment. -/
theorem not_mem_takeWhile (text : List Char) : '#' ∉ text.takeWhile fun c => !endsPath c := by
  intro hmem
  simpa [endsPath] using List.mem_takeWhile_imp hmem

theorem not_mem_pathAfterHost (kind : Kind) (rest : List Char) :
    '#' ∉ pathAfterHost kind rest := by
  have htext := not_mem_takeWhile rest
  have hroot : '#' ∉ ['/'] := by decide
  unfold pathAfterHost
  dsimp only
  split
  · split <;> decide
  · rename_i c tail heq
    rw [heq] at htext
    have htail : '#' ∉ tail := fun hmem => htext (List.mem_cons_of_mem c hmem)
    split
    · refine not_mem_buildPath hroot ?_
      split
      · exact htail
      · rwa [heq]
    · rw [heq]
      split
      · exact not_mem_buildPath List.not_mem_nil htext
      · exact not_mem_buildPath hroot htext

theorem not_mem_afterAuthority? (h : afterAuthority? kind text = some path) : '#' ∉ path := by
  unfold afterAuthority? at h
  dsimp only at h
  split_ifs at h
  all_goals
    rw [← Option.some.inj h]
    exact not_mem_pathAfterHost _ _

theorem not_mem_filePath? (h : filePath? text = some path) : '#' ∉ path := by
  have hroot : '#' ∉ ['/'] := by decide
  have hbuilt : ∀ {start : List Char} (rest : List Char), '#' ∉ start →
      '#' ∉ buildPath .file start (rest.takeWhile fun c => !endsPath c) :=
    fun rest hstart => not_mem_buildPath hstart (not_mem_takeWhile rest)
  unfold filePath? at h
  dsimp only at h
  split at h
  · -- With two separators in front there may be a host.
    split_ifs at h <;> obtain rfl := Option.some.inj h
    · exact hbuilt _ hroot
    · exact hbuilt _ hroot
    · exact not_mem_pathAfterHost _ _
    · exact hbuilt _ List.not_mem_nil
    · exact hbuilt _ hroot
  · split_ifs at h <;> obtain rfl := Option.some.inj h
    · exact hbuilt _ List.not_mem_nil
    · exact hbuilt _ hroot

theorem not_mem_otherPath? (h : otherPath? text = some path) : '#' ∉ path := by
  unfold otherPath? at h
  split at h
  · exact not_mem_afterAuthority? h
  · rw [← Option.some.inj h]
    exact not_mem_buildPath (by decide) (not_mem_takeWhile _)
  · rw [← Option.some.inj h]
    exact not_mem_encodeWith isControl (not_mem_takeWhile _)

/-- **The path of a uri holds no sign of a fragment**, whatever the text of the uri. -/
theorem not_mem_path {source path : String} (h : path? source = some path) :
    '#' ∉ path.toList := by
  unfold path? at h
  split at h
  · cases h
  · obtain ⟨found, hfound, rfl⟩ := Option.map_eq_some_iff.mp h
    rw [String.toList_ofList]
    split at hfound
    · exact not_mem_filePath? hfound
    · exact not_mem_afterAuthority? hfound
    · exact not_mem_otherPath? hfound

end Uri
end LanguageClient
