import LanguageClient.Json.Printer
import LanguageClient.Proofs.Json.RoundTrip
import LanguageClient.Proofs.Message.Members

/-!
# What is printed over several lines, and what is read at all

Line breaks and blanks between the tokens of a value are skipped when it is read, so the text with
one item or member a line is read as the compact one.  And whatever is read has its names in order
and is not nested too deep: the stack machine builds no other values.

* `Token.reads_newLine` — a line break with the blanks of its level is skipped.
* `Json.reads_prettyAt` — the text over several lines is read as the tokens of its value.
* **`Json.parse?_pretty`** — a value is read back from it.
* `Json.FitsDepth`, `Json.State.Holds` — what the containers that are being read hold.
* **`Json.fitsDepth_of_parse?`** — what is read has its names in order and is nested within the limit.
-/

namespace LanguageClient

namespace Token

/-! ### Blanks between tokens -/

/-- A blank in front of a text is skipped. -/
theorem reads_gap {c : Char} (hc : isGap c) {cs : List Char} {tokens : List Token}
    (h : Reads cs tokens) : Reads (c :: cs) tokens := by
  intro fuel hfuel
  rw [List.length_cons] at hfuel
  cases fuel with
  | zero => omega
  | succ fuel =>
      have hskip : scan? (fuel + 1) (c :: cs) = scan? (fuel + 1) cs := by
        rw [scan?, scan?, List.dropWhile_cons_of_pos hc]
      rw [hskip]
      exact h (fuel + 1) (by omega)

theorem reads_gaps {blanks : List Char} (hblanks : ∀ c ∈ blanks, isGap c) {cs : List Char}
    {tokens : List Token} (h : Reads cs tokens) : Reads (blanks ++ cs) tokens := by
  induction blanks with
  | nil => exact h
  | cons c rest ih =>
      rw [List.forall_mem_cons] at hblanks
      exact reads_gap hblanks.1 (ih hblanks.2)

/-- A line break with the blanks of a level is skipped. -/
theorem reads_newLine (level : Nat) {cs : List Char} {tokens : List Token} (h : Reads cs tokens) :
    Reads (Json.newLine level ++ cs) tokens := by
  refine reads_gaps ?_ h
  intro c hc
  rw [Json.newLine, List.mem_cons] at hc
  rcases hc with rfl | hc
  · rfl
  · rw [List.eq_of_mem_replicate hc]
    rfl

end Token

namespace Json

open Token (Reads reads_cons reads_newLine reads_gap)
open Number (Parts)

/-! ### Values over several lines -/

theorem parts_prettyItems (level : Nat) (items : List Json) (cs : List Char) :
    Parts (prettyItems level items ++ cs) := by
  cases items <;> exact parts_cons (by decide) (by decide) _

theorem parts_prettyMembers (level : Nat) (members : List (String × Json)) (cs : List Char) :
    Parts (prettyMembers level members ++ cs) := by
  cases members <;> exact parts_cons (by decide) (by decide) _

/-- A name, its colon and the blank behind it, on a line of their own. -/
theorem reads_name (level : Nat) (name : String) {cs : List Char} {tokens : List Token}
    (h : Reads cs tokens) :
    Reads (newLine level ++ (Token.quoted name ++ ':' :: ' ' :: cs))
      (.str name :: .colon :: tokens) := by
  have hcolon := reads_mark (t := .colon) (by simp) (reads_gap (c := ' ') rfl h)
  exact reads_newLine level (reads_mark (t := .str name) (by simp) hcolon)

mutual

/-- **The text of a value over several lines is read as its tokens**, at every level and in front of
any text that ends a number. -/
theorem reads_prettyAt : ∀ (value : Json) (level : Nat), AreReadBack value.numbers →
    ∀ {cs : List Char} {tokens : List Token}, Parts cs → Reads cs tokens →
      Reads (value.prettyAt level ++ cs) (value.tokens ++ tokens)
  | .null, _, _, cs, tokens, _, h => by
      simpa [prettyAt, Json.tokens] using reads_mark (t := .null) (by simp) h
  | .bool b, _, _, cs, tokens, _, h => by
      simpa [prettyAt, Json.tokens] using reads_mark (t := .bool b) (by simp) h
  | .num n, _, hn, cs, tokens, hcs, h => by
      have hplain : (Token.num n).IsPlain := hn n (by simp [numbers])
      simpa [prettyAt, Json.tokens, Token.text] using reads_cons hplain (fun _ _ => hcs) h
  | .str s, _, _, cs, tokens, _, h => by
      simpa [prettyAt, Json.tokens, Token.text] using reads_mark (t := .str s) (by simp) h
  | .arr [], _, _, cs, tokens, _, h => by
      have hclose := reads_mark (t := .closeArray) (by simp) h
      simpa [prettyAt, Json.tokens, Token.text] using reads_mark (t := .openArray) (by simp) hclose
  | .arr (item :: rest), level, hn, cs, tokens, _, h => by
      obtain ⟨hitem, hrest⟩ := areReadBack_append (by simpa [numbers, itemNumbers] using hn)
      have hread := reads_prettyAt item (level + 1) hitem (parts_prettyItems level rest cs)
        (reads_prettyItems rest level hrest h)
      simpa [prettyAt, Json.tokens, Token.text] using
        reads_mark (t := .openArray) (by simp) (reads_newLine (level + 1) hread)
  | .obj [], _, _, cs, tokens, _, h => by
      have hclose := reads_mark (t := .closeObject) (by simp) h
      simpa [prettyAt, Json.tokens, Token.text] using reads_mark (t := .openObject) (by simp) hclose
  | .obj (member :: rest), level, hn, cs, tokens, _, h => by
      obtain ⟨hmember, hrest⟩ := areReadBack_append (by simpa [numbers, memberNumbers] using hn)
      have hread := reads_prettyAt member.2 (level + 1) hmember (parts_prettyMembers level rest cs)
        (reads_prettyMembers rest level hrest h)
      have hname := reads_name (level + 1) member.1 hread
      simpa [prettyAt, Json.tokens, Token.text] using reads_mark (t := .openObject) (by simp) hname

theorem reads_prettyItems : ∀ (items : List Json) (level : Nat), AreReadBack (itemNumbers items) →
    ∀ {cs : List Char} {tokens : List Token}, Reads cs tokens →
      Reads (prettyItems level items ++ cs) (itemTokens items ++ tokens)
  | [], level, _, cs, tokens, h => by
      have hclose := reads_mark (t := .closeArray) (by simp) h
      simpa [prettyItems, itemTokens, Token.text] using reads_newLine level hclose
  | item :: rest, level, hn, cs, tokens, h => by
      obtain ⟨hitem, hrest⟩ := areReadBack_append (by simpa [itemNumbers] using hn)
      have hread := reads_prettyAt item (level + 1) hitem (parts_prettyItems level rest cs)
        (reads_prettyItems rest level hrest h)
      simpa [prettyItems, itemTokens, Token.text] using
        reads_mark (t := .comma) (by simp) (reads_newLine (level + 1) hread)

theorem reads_prettyMembers : ∀ (members : List (String × Json)) (level : Nat),
    AreReadBack (memberNumbers members) → ∀ {cs : List Char} {tokens : List Token},
      Reads cs tokens → Reads (prettyMembers level members ++ cs) (memberTokens members ++ tokens)
  | [], level, _, cs, tokens, h => by
      have hclose := reads_mark (t := .closeObject) (by simp) h
      simpa [prettyMembers, memberTokens, Token.text] using reads_newLine level hclose
  | member :: rest, level, hn, cs, tokens, h => by
      obtain ⟨hmember, hrest⟩ := areReadBack_append (by simpa [memberNumbers] using hn)
      have hread := reads_prettyAt member.2 (level + 1) hmember (parts_prettyMembers level rest cs)
        (reads_prettyMembers rest level hrest h)
      have hname := reads_name (level + 1) member.1 hread
      simpa [prettyMembers, memberTokens, Token.text] using reads_mark (t := .comma) (by simp) hname

end

/-- **A value is read back from its text over several lines.** -/
theorem parse?_pretty {value : Json} (hsorted : value.Sorted)
    (hnumbers : AreReadBack value.numbers) (hdepth : value.depth ≤ depthLimit) :
    parse? value.pretty = some value := by
  have hreads := reads_prettyAt value 0 hnumbers Number.parts_nil Token.reads_nil
  rw [List.append_nil, List.append_nil] at hreads
  rw [parse?, parseWithin?, pretty, String.toList_ofList, Token.ofText?_of_reads hreads]
  exact ofTokens?_tokens hsorted hdepth

/-! ### What is read -/

/-- A value has its names in order, and is nested at most so deep. -/
structure FitsDepth (limit : Nat) (value : Json) : Prop where
  sorted : value.Sorted
  depth : value.depth ≤ limit

/-- The values that a container has taken so far. -/
def Frame.values : Frame → List Json
  | .items read => read
  | .members read => read.map Prod.snd
  | .member _ read => read.map Prod.snd

/-- Whatever the open containers have taken fits into what is left of the limit there. -/
def StackHolds (limit : Nat) : List Frame → Prop
  | [] => True
  | frame :: rest =>
      rest.length < limit ∧ (∀ value ∈ frame.values, value.FitsDepth (limit - rest.length - 1)) ∧
        StackHolds limit rest

/-- What has been read so far fits. -/
def State.Holds (limit : Nat) : State → Prop
  | .value stack => StackHolds limit stack
  | .firstItem stack => StackHolds limit (.items [] :: stack)
  | .firstName read stack => StackHolds limit (.members read :: stack)
  | .name read stack => StackHolds limit (.members read :: stack)
  | .colon n read stack => StackHolds limit (.member n read :: stack)
  | .next top stack => StackHolds limit (top :: stack)
  | .finished v => v.FitsDepth limit

theorem fitsDepth_scalar {limit : Nat} {value : Json} (hsorted : value.Sorted)
    (hdepth : value.depth = 0) : value.FitsDepth limit := ⟨hsorted, hdepth ▸ Nat.zero_le _⟩

theorem sortedItems_iff {items : List Json} :
    SortedItems items ↔ ∀ item ∈ items, item.Sorted := by
  induction items with
  | nil => simp [SortedItems]
  | cons item rest ih => simp [SortedItems, ih]

theorem depthItems_le_iff {items : List Json} {limit : Nat} :
    depthItems items ≤ limit ↔ ∀ item ∈ items, item.depth ≤ limit := by
  induction items with
  | nil => simp [depthItems]
  | cons item rest ih => simp [depthItems, ih]

theorem fitsDepth_arr {limit : Nat} {items : List Json} (h : ∀ item ∈ items, item.FitsDepth limit) :
    (Json.arr items).FitsDepth (limit + 1) where
  sorted := sortedItems_iff.mpr fun item hitem => (h item hitem).sorted
  depth := Nat.succ_le_succ (depthItems_le_iff.mpr fun item hitem => (h item hitem).depth)

theorem fitsDepth_ofMembers {limit : Nat} {members : List (String × Json)}
    (h : ∀ member ∈ members, member.2.FitsDepth limit) :
    (ofMembers members).FitsDepth (limit + 1) := by
  have hmembers : ∀ member ∈ sortMembers members, member.2.FitsDepth limit := by
    intro member hmember
    rcases mem_of_mem_foldl hmember with hmember | hnone
    · exact h member hmember
    · cases hnone
  exact {
    sorted := ⟨increasingNames_foldl List.Pairwise.nil,
      sortedMembers_iff.mpr fun member hmember => (hmembers member hmember).sorted⟩
    depth := Nat.succ_le_succ
      (depthMembers_le_iff.mpr fun member hmember => (hmembers member hmember).depth) }

/-- A complete value that fits is taken by the innermost container. -/
theorem holds_give {limit : Nat} {value : Json} {stack : List Frame} (hstack : StackHolds limit stack)
    (hvalue : value.FitsDepth (limit - stack.length)) : (State.give value stack).Holds limit := by
  cases stack with
  | nil => exact hvalue
  | cons frame rest =>
      obtain ⟨hlimit, hvalues, hrest⟩ := hstack
      rw [List.length_cons, ← Nat.sub_sub] at hvalue
      cases frame with
      | items read => exact ⟨hlimit, List.forall_mem_cons.mpr ⟨hvalue, hvalues⟩, hrest⟩
      | members read => exact ⟨hlimit, hvalues, hrest⟩
      | member name read => exact ⟨hlimit, List.forall_mem_cons.mpr ⟨hvalue, hvalues⟩, hrest⟩

theorem holds_beginValue? {limit : Nat} {stack : List Frame} (hstack : StackHolds limit stack)
    {token : Token} {next : State} (h : State.beginValue? limit stack token = some next) :
    next.Holds limit := by
  unfold State.beginValue? at h
  split at h
  case h_1 | h_2 | h_3 | h_4 =>
    cases h
    exact holds_give hstack (fitsDepth_scalar trivial rfl)
  case h_5 | h_6 =>
    split at h
    · rename_i hlimit
      cases h
      exact ⟨hlimit, by simp [Frame.values], hstack⟩
    · cases h
  case h_7 => cases h

/-- A container that is closed fits into the one around it. -/
theorem holds_close {limit : Nat} {value : Json} {frame : Frame} {stack : List Frame}
    (hstack : StackHolds limit (frame :: stack))
    (hvalue : ∀ bound, (∀ item ∈ frame.values, item.FitsDepth bound) → value.FitsDepth (bound + 1)) :
    (State.give value stack).Holds limit := by
  obtain ⟨hlimit, hvalues, hrest⟩ := hstack
  have hclosed := hvalue _ hvalues
  have hbound : limit - stack.length - 1 + 1 = limit - stack.length := by omega
  rw [hbound] at hclosed
  exact holds_give hrest hclosed

theorem fitsDepth_closed_items {read : List Json} {bound : Nat}
    (h : ∀ item ∈ (Frame.items read).values, item.FitsDepth bound) :
    (Json.arr read.reverse).FitsDepth (bound + 1) :=
  fitsDepth_arr fun item hitem => h item (List.mem_reverse.mp hitem)

theorem fitsDepth_closed_members {read : List (String × Json)} {bound : Nat}
    (h : ∀ value ∈ (Frame.members read).values, value.FitsDepth bound) :
    (ofMembers read.reverse).FitsDepth (bound + 1) :=
  fitsDepth_ofMembers fun member hmember =>
    h member.2 (List.mem_map_of_mem (List.mem_reverse.mp hmember))

/-- **Every token keeps what has been read within the limit.** -/
theorem holds_step? {limit : Nat} {state next : State} {token : Token} (h : state.Holds limit)
    (hstep : state.step? limit token = some next) : next.Holds limit := by
  unfold State.step? at hstep
  split at hstep
  · exact holds_beginValue? h hstep
  · cases hstep
    exact holds_close h fun _ hitems =>
      fitsDepth_arr fun item hitem => hitems item hitem
  · exact holds_beginValue? h hstep
  · cases hstep
    exact holds_close h fun bound _ => ⟨⟨List.Pairwise.nil, trivial⟩, Nat.succ_le_succ (Nat.zero_le _)⟩
  · cases hstep
    exact h
  · cases hstep
    exact h
  · cases hstep
    exact h
  · cases hstep
    exact h
  · cases hstep
    exact holds_close h fun bound hitems => fitsDepth_closed_items hitems
  · cases hstep
    exact h
  · cases hstep
    exact holds_close h fun bound hmembers => fitsDepth_closed_members hmembers
  · cases hstep

theorem holds_run? {limit : Nat} {state last : State} {tokens : List Token} (h : state.Holds limit)
    (hrun : run? limit state tokens = some last) : last.Holds limit := by
  induction tokens generalizing state with
  | nil =>
      cases hrun
      exact h
  | cons token rest ih =>
      rw [run?, List.foldlM_cons] at hrun
      obtain ⟨next, hstep, hrest⟩ := Option.bind_eq_some_iff.mp hrun
      exact ih (holds_step? h hstep) hrest

/-- **Whatever is read has its names in order and is nested within the limit.** -/
theorem fitsDepth_of_parse? {text : String} {value : Json} (h : parse? text = some value) :
    value.FitsDepth depthLimit := by
  unfold parse? parseWithin? at h
  obtain ⟨tokens, -, hvalue⟩ := Option.bind_eq_some_iff.mp h
  obtain ⟨last, hrun, hresult⟩ := Option.bind_eq_some_iff.mp hvalue
  have hstart : (State.value []).Holds depthLimit := trivial
  have hlast := holds_run? hstart hrun
  unfold State.result? at hresult
  split at hresult
  · cases hresult
    exact hlast
  · cases hresult

end Json
end LanguageClient
