import LanguageClient.Frame.Basic
import LanguageClient.Proofs.Text.Split
import Mathlib.Data.List.Forall2

/-!
# The grammar of frames

What stands at the front of a stream is said here by a grammar of lines, without the loop that reads
it.

* `IsLine`, `HeaderLine.Says` — the lines of a header, and what each of them says.
* `Frame.IsHeader` — lines that announce a body of a size, and the empty line after them.
* `Frame.Begins` — a header and the body that it announces, in front of a stream.
* `Frame.Reading.OfBody`, `Frame.ofBody_readBody` — all that can be read where a body begins, with
  the condition for each.
* **`Frame.read_message_iff`** — reading gives a message exactly when the stream begins with one,
  and takes exactly that off; a body that is no value is taken off as well.
-/

namespace LanguageClient

/-! ### Lines -/

/-- Bytes that end in a line feed and have no other one. -/
def IsLine (line : List UInt8) : Prop := ∃ visible : List UInt8, line = visible ++ [10] ∧ 10 ∉ visible

theorem splitLine?_of_isLine {line : List UInt8} (h : IsLine line) (rest : List UInt8) :
    splitLine? (line ++ rest) = some (line, rest) := by
  obtain ⟨visible, rfl, hfront⟩ := h
  induction visible with
  | nil => rfl
  | cons b visible ih =>
      rw [List.mem_cons, not_or] at hfront
      have hb : b ≠ 10 := fun heq => hfront.1 heq.symm
      simpa [splitLine?, hb] using ih hfront.2

theorem isLine_of_splitLine? {bs line rest : List UInt8} (h : splitLine? bs = some (line, rest)) :
    IsLine line := by
  induction bs generalizing line rest with
  | nil => cases h
  | cons b bs ih =>
      unfold splitLine? at h
      split at h
      · rename_i hb
        cases h
        exact ⟨[], by rw [hb]; rfl, by simp⟩
      · rename_i hb
        obtain ⟨⟨line', rest'⟩, hfound, heq⟩ := Option.map_eq_some_iff.mp h
        cases heq
        obtain ⟨visible, rfl, hfront⟩ := ih hfound
        refine ⟨b :: visible, rfl, ?_⟩
        rw [List.mem_cons, not_or]
        exact ⟨fun heq => hb heq.symm, hfront⟩

namespace Text

/-- A text splits at its first colon. -/
theorem splitOnFirst_colon_iff {s name value : String} :
    splitOnFirst (· = ':') s = some (name, value) ↔
      s = name ++ ":" ++ value ∧ ':' ∉ name.toList :=
  splitOnFirst_eq_some_iff

end Text

namespace HeaderLine

/-- What the text of a line says: nothing when it is empty, else what its name and the value after
the first colon tell. -/
inductive Says : String → HeaderLine → Prop
  | blank : Says "" .blank
  | contentLength {name value : String} {size : Nat} (hcolon : ':' ∉ name.toList)
      (hname : Text.equalIgnoringCase (Text.trim name) contentLengthName)
      (hsize : Text.wordOf? (Text.trim value) = some size) :
      Says (name ++ ":" ++ value) (.contentLength size)
  | other {name value : String} (hcolon : ':' ∉ name.toList)
      (hname : Text.equalIgnoringCase (Text.trim name) contentLengthName = false) :
      Says (name ++ ":" ++ value) .other

/-- A line, its text, and what that says. -/
structure Tells (line : List UInt8) (said : HeaderLine) : Prop where
  isLine : IsLine line
  text : ∃ text : String, Text.ofBytes? line = some text ∧ Says (Text.trim text) said

theorem ofText_eq_ok_iff {line : String} {said : HeaderLine} :
    ofText line = .ok said ↔ Says line said := by
  constructor
  · intro h
    unfold ofText at h
    split at h
    · rename_i hempty
      cases h
      rw [String.isEmpty_iff.mp hempty]
      exact .blank
    · split at h
      · cases h
      · rename_i name value hsplit
        obtain ⟨rfl, hcolon⟩ := Text.splitOnFirst_colon_iff.mp hsplit
        split at h
        · rename_i hname
          split at h
          · rename_i size hsize
            cases h
            exact .contentLength hcolon hname hsize
          · cases h
        · rename_i hname
          cases h
          exact .other hcolon (by simpa using hname)
  · have hfull : ∀ name value : String, (name ++ ":" ++ value).isEmpty = false := by
      intro name value
      simp [String.isEmpty_eq_false_iff]
    rintro (_ | ⟨hcolon, hname, hsize⟩ | ⟨hcolon, hname⟩)
    · rfl
    · simp [ofText, hfull, Text.splitOnFirst_colon_iff.mpr ⟨rfl, hcolon⟩, hname, hsize]
    · simp [ofText, hfull, Text.splitOnFirst_colon_iff.mpr ⟨rfl, hcolon⟩, hname]

theorem ofBytes_of_tells {line : List UInt8} {said : HeaderLine} (h : Tells line said) :
    ofBytes line = .ok said := by
  obtain ⟨text, htext, hlines⟩ := h.text
  simp only [ofBytes, htext]
  exact ofText_eq_ok_iff.mpr hlines

theorem tells_of_ofBytes {line : List UInt8} {said : HeaderLine} (hline : IsLine line)
    (h : ofBytes line = .ok said) : Tells line said := by
  refine ⟨hline, ?_⟩
  unfold ofBytes at h
  split at h
  · rename_i text htext
    exact ⟨text, htext, ofText_eq_ok_iff.mp h⟩
  · cases h

/-- The length that a line announces. -/
def size? : HeaderLine → Option Nat
  | blank => none
  | contentLength size => some size
  | other => none

end HeaderLine

namespace Frame

/-! ### Headers -/

/-- What lines say up to the empty line that ends a header: the first length may stand after other
lines and empty ones, no empty line comes after it, and the last length is the size. -/
def Announces (said : List HeaderLine) (size : Nat) : Prop :=
  ∃ (before after : List HeaderLine) (first : Nat),
    said = before ++ .contentLength first :: (after ++ [.blank]) ∧
      (∀ line ∈ before, line.size? = none) ∧ .blank ∉ after ∧
      ((.contentLength first :: after).filterMap HeaderLine.size?).getLast? = some size

/-- Lines that announce a body of a size, the last of them empty. -/
def IsHeader (lines : List (List UInt8)) (size : Nat) : Prop :=
  ∃ said : List HeaderLine, List.Forall₂ HeaderLine.Tells lines said ∧ Announces said size

/-- A stream begins with a header and the body that it announces. -/
def Begins (input body rest : List UInt8) : Prop :=
  ∃ lines : List (List UInt8), IsHeader lines body.length ∧ input = lines.flatten ++ body ++ rest

/-- The same header as it is read, line by line, when a length may have been announced before. -/
inductive Ends : Option Nat → List HeaderLine → Nat → Prop
  | blank (size : Nat) : Ends (some size) [.blank] size
  | skip {said : List HeaderLine} {size : Nat} (h : Ends none said size) :
      Ends none (.blank :: said) size
  | contentLength {old : Option Nat} {new size : Nat} {said : List HeaderLine}
      (h : Ends (some new) said size) : Ends old (.contentLength new :: said) size
  | other {old : Option Nat} {said : List HeaderLine} {size : Nat} (h : Ends old said size) :
      Ends old (.other :: said) size

/-- Once a length has been announced, only the empty line at the end is empty, and the last length
holds. -/
theorem ends_some_iff {old size : Nat} {said : List HeaderLine} :
    Ends (some old) said size ↔ ∃ after : List HeaderLine, said = after ++ [.blank] ∧
      .blank ∉ after ∧ ((.contentLength old :: after).filterMap HeaderLine.size?).getLast? =
        some size := by
  constructor
  · -- The induction is on the header as it is read; no empty line can be skipped any more.
    intro h
    generalize hold : some old = old? at h
    induction h generalizing old with
    | blank size =>
        cases hold
        exact ⟨[], rfl, by simp, rfl⟩
    | skip h ih => cases hold
    | contentLength h ih =>
        obtain ⟨after, rfl, hblank, hlast⟩ := ih rfl
        refine ⟨_ :: after, rfl, by simp [hblank], ?_⟩
        simpa [HeaderLine.size?] using hlast
    | other h ih =>
        obtain ⟨after, rfl, hblank, hlast⟩ := ih hold
        exact ⟨.other :: after, rfl, by simp [hblank], hlast⟩
  · rintro ⟨after, rfl, hblank, hlast⟩
    induction after generalizing old with
    | nil =>
        have hsize : old = size := by simpa [HeaderLine.size?] using hlast
        rw [hsize]
        exact .blank size
    | cons line after ih =>
        rw [List.mem_cons, not_or] at hblank
        cases line with
        | blank => exact absurd rfl hblank.1
        | contentLength new =>
            exact .contentLength (ih hblank.2 (by simpa [HeaderLine.size?] using hlast))
        | other => exact .other (ih hblank.2 hlast)

/-- Both ways to say what a header is agree. -/
theorem ends_none_iff {size : Nat} {said : List HeaderLine} :
    Ends none said size ↔ Announces said size := by
  constructor
  · intro h
    generalize hold : (none : Option Nat) = old? at h
    induction h with
    | blank size => cases hold
    | skip h ih =>
        obtain ⟨before, after, first, rfl, hbefore, hafter⟩ := ih hold
        refine ⟨.blank :: before, after, first, rfl, ?_, hafter⟩
        simpa [HeaderLine.size?] using hbefore
    | contentLength h ih =>
        obtain ⟨after, rfl, hafter⟩ := ends_some_iff.mp h
        exact ⟨[], after, _, rfl, by simp, hafter⟩
    | other h ih =>
        obtain ⟨before, after, first, rfl, hbefore, hafter⟩ := ih hold
        refine ⟨.other :: before, after, first, rfl, ?_, hafter⟩
        simpa [HeaderLine.size?] using hbefore
  · rintro ⟨before, after, first, rfl, hbefore, hafter⟩
    induction before with
    | nil => exact .contentLength (ends_some_iff.mpr ⟨after, rfl, hafter⟩)
    | cons line before ih =>
        rw [List.forall_mem_cons] at hbefore
        cases line with
        | blank => exact .skip (ih hbefore.2)
        | contentLength size => cases hbefore.1
        | other => exact .other (ih hbefore.2)

/-! ### Reading a header -/

/-- One line is taken off the stream. -/
theorem readFrom_line {line : List UInt8} {said : HeaderLine} (h : HeaderLine.Tells line said)
    (ended : Bool) (size : Option Nat) (input : List UInt8) :
    readFrom ended size (line ++ input) = match said, size with
      | .blank, some size => readBody ended size input
      | .blank, none => readFrom ended none input
      | .contentLength size, _ => readFrom ended (some size) input
      | .other, size => readFrom ended size input := by
  rw [readFrom]
  split
  · rename_i hnone
    rw [splitLine?_of_isLine h.isLine] at hnone
    cases hnone
  · rename_i line' rest hsome
    rw [splitLine?_of_isLine h.isLine] at hsome
    cases hsome
    rw [HeaderLine.ofBytes_of_tells h]
    cases said <;> cases size <;> rfl

/-- After a header the body is read. -/
theorem readFrom_of_ends {lines : List (List UInt8)} {said : List HeaderLine} {old : Option Nat}
    {size : Nat} (hlines : List.Forall₂ HeaderLine.Tells lines said) (hends : Ends old said size)
    (ended : Bool) (input : List UInt8) :
    readFrom ended old (lines.flatten ++ input) = readBody ended size input := by
  induction hends generalizing lines with
  | blank size =>
      cases hlines with
      | cons hline hrest =>
          cases hrest
          simp [readFrom_line hline]
  | skip h ih =>
      cases hlines with
      | cons hline hrest => simpa [readFrom_line hline] using ih hrest
  | contentLength h ih =>
      cases hlines with
      | cons hline hrest => simpa [readFrom_line hline] using ih hrest
  | other h ih =>
      cases hlines with
      | cons hline hrest => simpa [readFrom_line hline] using ih hrest

theorem read_of_begins {input body rest : List UInt8} (h : Begins input body rest) (ended : Bool) :
    read ended input = readBody ended body.length (body ++ rest) := by
  obtain ⟨lines, ⟨said, hlines, hannounces⟩, rfl⟩ := h
  rw [List.append_assoc]
  exact readFrom_of_ends hlines (ends_none_iff.mpr hannounces) ended (body ++ rest)

/-! ### Reading a body -/

/-- What is read where a body of a size begins: its length is refused, the stream ends in it or does
not hold it yet, or it is taken off, whether it writes a value or not. -/
inductive Reading.OfBody (ended : Bool) (size : Nat) (input : List UInt8) : Reading → Prop
  | tooLarge (hlarge : sizeLimit ≤ size) : OfBody ended size input .tooLarge
  | endsEarly (hfits : size < sizeLimit) (hshort : input.length < size) (hended : ended = true) :
      OfBody ended size input (.failed (.stream .endsEarly))
  | incomplete (hfits : size < sizeLimit) (hshort : input.length < size) (hopen : ended = false) :
      OfBody ended size input .incomplete
  | message (value : Json) (hfits : size < sizeLimit) (hlong : size ≤ input.length)
      (hvalue : decodeBody? (input.take size) = some value) :
      OfBody ended size input (.message value (input.drop size))
  | invalid (hfits : size < sizeLimit) (hlong : size ≤ input.length)
      (hvalue : decodeBody? (input.take size) = none) :
      OfBody ended size input (.invalid (input.drop size))

theorem ofBody_readBody (ended : Bool) (size : Nat) (input : List UInt8) :
    (readBody ended size input).OfBody ended size input := by
  unfold readBody
  split
  · rename_i hlarge
    exact .tooLarge hlarge
  · rename_i hfits
    rw [Nat.not_le] at hfits
    split
    · rename_i hshort
      cases ended with
      | true => exact .endsEarly hfits hshort rfl
      | false => exact .incomplete hfits hshort rfl
    · rename_i hlong
      rw [Nat.not_lt] at hlong
      cases hvalue : decodeBody? (input.take size) with
      | some value => exact .message value hfits hlong hvalue
      | none => exact .invalid hfits hlong hvalue

/-- The same of a reading that is known. -/
theorem ofBody_of_readBody {ended : Bool} {size : Nat} {input : List UInt8} {reading : Reading}
    (h : readBody ended size input = reading) : reading.OfBody ended size input :=
  h ▸ ofBody_readBody ended size input

theorem readBody_append (ended : Bool) (body rest : List UInt8) :
    readBody ended body.length (body ++ rest) =
      if sizeLimit ≤ body.length then .tooLarge
      else match decodeBody? body with
        | some value => .message value rest
        | none => .invalid rest := by
  have hlong : ¬ (body ++ rest).length < body.length := by
    rw [List.length_append]
    omega
  cases hdecode : decodeBody? body <;>
    simp only [readBody, if_neg hlong, List.take_left, List.drop_left, hdecode]

/-- What is read of a frame with a body: its value, if the body writes one, and what follows. -/
def taken (body rest : List UInt8) : Reading :=
  match decodeBody? body with
  | some value => .message value rest
  | none => .invalid rest

/-- A frame at the front of a stream is taken off whole, whatever its body holds. -/
theorem read_of_fits {input body rest : List UInt8} (h : Begins input body rest)
    (hfits : body.length < sizeLimit) (ended : Bool) : read ended input = taken body rest := by
  rw [read_of_begins h, readBody_append, if_neg (Nat.not_le.mpr hfits)]
  rfl

theorem rest?_taken (body rest : List UInt8) : (taken body rest).rest? = some rest := by
  unfold taken
  split <;> rfl

theorem eq_append_of_readBody {ended : Bool} {size : Nat} {input rest : List UInt8} {value : Json}
    (h : readBody ended size input = .message value rest) :
    ∃ body : List UInt8, body.length = size ∧ input = body ++ rest ∧ size < sizeLimit ∧
      decodeBody? body = some value := by
  cases ofBody_of_readBody h with
  | message _ hfits hlong hvalue =>
      exact ⟨input.take size, List.length_take_of_le hlong,
        (List.take_append_drop size input).symm, hfits, hvalue⟩

/-- No value is written by no bytes. -/
theorem decodeBody?_nil : decodeBody? [] = none := by decide

/-- A stream whose last line has no line feed holds no message. -/
theorem readLastLine_ne_message (size : Option Nat) (line : List UInt8) (value : Json)
    (rest : List UInt8) : readLastLine size line ≠ .message value rest := by
  intro h
  unfold readLastLine at h
  split at h
  · cases h
  · split at h
    · obtain ⟨body, -, hbody, -, hdecode⟩ := eq_append_of_readBody h
      have hempty : body = [] := (List.append_eq_nil_iff.mp hbody.symm).1
      rw [hempty, decodeBody?_nil] at hdecode
      cases hdecode
    · cases h
  · cases h
  · cases size <;> cases h

/-- Without a line feed there is no message. -/
theorem line_of_readFrom {ended : Bool} {old : Option Nat} {input rest : List UInt8} {value : Json}
    (h : readFrom ended old input = .message value rest) :
    ∃ (line tail : List UInt8) (said : HeaderLine), splitLine? input = some (line, tail) ∧
      HeaderLine.Tells line said := by
  rw [readFrom] at h
  split at h
  · split at h
    · cases h
    · split at h
      · cases old <;> cases h
      · exact absurd h (readLastLine_ne_message _ _ _ _)
  · rename_i line tail hsplit
    cases hsaid : HeaderLine.ofBytes line with
    | error e =>
        rw [hsaid] at h
        cases h
    | ok said =>
        exact ⟨line, tail, said, hsplit,
          HeaderLine.tells_of_ofBytes (isLine_of_splitLine? hsplit) hsaid⟩

/-- Whatever is read as a message has a header. -/
theorem exists_header_of_readFrom {ended : Bool} {old : Option Nat} {input rest : List UInt8}
    {value : Json} (h : readFrom ended old input = .message value rest) :
    ∃ (lines : List (List UInt8)) (said : List HeaderLine) (size : Nat) (tail : List UInt8),
      List.Forall₂ HeaderLine.Tells lines said ∧ Ends old said size ∧
        input = lines.flatten ++ tail ∧ readBody ended size tail = .message value rest := by
  -- The induction is on the length of the stream: every line takes something off it.
  induction hlength : input.length using Nat.strong_induction_on generalizing old input with
  | _ n ih =>
      obtain ⟨line, tail, said, hsplit, htells⟩ := line_of_readFrom h
      have hshorter : tail.length < n := hlength ▸ length_lt_of_splitLine? hsplit
      obtain rfl := splitLine?_append hsplit
      rw [readFrom_line htells] at h
      -- What comes after the line has a header of its own, and the line goes in front of it.
      have hmore : ∀ {new : Option Nat}, readFrom ended new tail = .message value rest →
          (∀ {more : List HeaderLine} {size : Nat}, Ends new more size →
            Ends old (said :: more) size) →
          ∃ (lines : List (List UInt8)) (more : List HeaderLine) (size : Nat) (tail' : List UInt8),
            List.Forall₂ HeaderLine.Tells lines more ∧ Ends old more size ∧
              line ++ tail = lines.flatten ++ tail' ∧
                readBody ended size tail' = .message value rest := by
        intro new hread hends
        obtain ⟨lines, more, size, tail', hlines, hmore, rfl, hbody⟩ := ih _ hshorter hread rfl
        exact ⟨line :: lines, said :: more, size, tail', .cons htells hlines, hends hmore,
          by simp, hbody⟩
      cases said with
      | blank =>
          cases old with
          | none => exact hmore h Ends.skip
          | some size =>
              exact ⟨[line], [.blank], size, tail, .cons htells .nil, .blank size, by simp, h⟩
      | contentLength size => exact hmore h Ends.contentLength
      | other => exact hmore h Ends.other

theorem begins_of_read {ended : Bool} {input rest : List UInt8} {value : Json}
    (h : read ended input = .message value rest) :
    ∃ body : List UInt8, Begins input body rest ∧ body.length < sizeLimit ∧
      decodeBody? body = some value := by
  obtain ⟨lines, said, size, tail, hlines, hends, rfl, hread⟩ := exists_header_of_readFrom h
  obtain ⟨body, rfl, rfl, hfits, hdecode⟩ := eq_append_of_readBody hread
  refine ⟨body, ⟨lines, ⟨said, hlines, ends_none_iff.mp hends⟩, ?_⟩, hfits, hdecode⟩
  rw [List.append_assoc]

/-- **What is read is what the grammar says.**  Whether the stream has ended or not, reading gives a
message exactly when the stream begins with a header and a body that is the text of its value, and
the rest is what follows that body.  A body that is no value is taken off as well; one that no
memory can hold is refused. -/
theorem read_message_iff (ended : Bool) (input : List UInt8) :
    (∀ (value : Json) (rest : List UInt8), read ended input = .message value rest ↔
        ∃ body : List UInt8, Begins input body rest ∧ body.length < sizeLimit ∧
          decodeBody? body = some value) ∧
      (∀ body rest : List UInt8, Begins input body rest → body.length < sizeLimit →
        decodeBody? body = none → read ended input = .invalid rest) ∧
      ∀ body rest : List UInt8, Begins input body rest → sizeLimit ≤ body.length →
        read ended input = .tooLarge := by
  refine ⟨fun value rest => ⟨begins_of_read, ?_⟩, ?_, ?_⟩
  · rintro ⟨body, hbegins, hfits, hdecode⟩
    rw [read_of_begins hbegins, readBody_append, if_neg (by omega), hdecode]
  · intro body rest hbegins hfits hdecode
    rw [read_of_begins hbegins, readBody_append, if_neg (by omega), hdecode]
  · intro body rest hbegins hlarge
    rw [read_of_begins hbegins, readBody_append, if_pos hlarge]

/-- Of two lengths the last one holds, and a body that is no value is taken off. -/
theorem spoiled_body_is_taken_off :
    let input := Text.bytes "Content-Length: 9\r\n\tCONTENT-LENGTH : 2\n\r\nno more"
    let body := Text.bytes "no"
    let rest := Text.bytes " more"
    Begins input body rest ∧ body.length < sizeLimit ∧ decodeBody? body = none ∧
      read true input = .invalid rest := by
  intro input body rest
  have hfirst : HeaderLine.Tells (Text.bytes "Content-Length: 9\r\n") (.contentLength 9) :=
    HeaderLine.tells_of_ofBytes ⟨Text.bytes "Content-Length: 9\r", by decide, by decide⟩ rfl
  have hsecond : HeaderLine.Tells (Text.bytes "\tCONTENT-LENGTH : 2\n") (.contentLength 2) :=
    HeaderLine.tells_of_ofBytes ⟨Text.bytes "\tCONTENT-LENGTH : 2", by decide, by decide⟩ rfl
  have hempty : HeaderLine.Tells (Text.bytes "\r\n") .blank :=
    HeaderLine.tells_of_ofBytes ⟨Text.bytes "\r", by decide, by decide⟩ rfl
  have hbegins : Begins input body rest := by
    refine ⟨_, ⟨_, .cons hfirst (.cons hsecond (.cons hempty .nil)), ?_⟩, by decide⟩
    exact ⟨[], [.contentLength 2], 9, rfl, by simp, by simp, rfl⟩
  have hfits : body.length < sizeLimit := by decide
  have hnone : decodeBody? body = none := by decide +kernel
  exact ⟨hbegins, hfits, hnone, (read_message_iff true input).2.1 body rest hbegins hfits hnone⟩

end Frame
end LanguageClient
