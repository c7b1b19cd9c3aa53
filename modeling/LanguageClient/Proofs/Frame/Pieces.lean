import LanguageClient.Proofs.Frame.Grammar

/-!
# Streams that are cut into pieces

A stream may be cut at any byte: inside a line, inside a character, between the two bytes that end a
line, inside a body.  What can be read at the front of a piece does not change when more arrives, so
reading piece by piece finds what reading the whole stream at once finds.

* `Frame.Reading.behind`, `Frame.Reading.bare` — a reading with more behind it, and without what is
  behind it.
* `Frame.lines_induction` — a reader goes along the lines of a header.
* **`Frame.read_more`** — a reading that was not waited for stays what it is when more arrives.
* `Frame.findings` — what the readings of a stream find; `Frame.findings_of_read` — one by one.
-/

namespace LanguageClient
namespace Frame

/-! ### Readings and what is behind them -/

namespace Reading

/-- The same reading, with more behind it. -/
def behind (more : List UInt8) : Reading → Reading
  | message value rest => .message value (rest ++ more)
  | invalid rest => .invalid (rest ++ more)
  | reading => reading

/-- The reading alone, without what is behind it. -/
def bare : Reading → Reading
  | message value _ => .message value []
  | invalid _ => .invalid []
  | reading => reading

/-- What a reader has to tell of a reading: the message, or the fault after which nothing follows.
A body that is no value is skipped. -/
def item? : Reading → Option (Except SessionError Json)
  | message value _ => some (.ok value)
  | failed e => some (.error e)
  | _ => none

@[simp] theorem bare_behind (more : List UInt8) (reading : Reading) :
    (reading.behind more).bare = reading.bare := by
  cases reading <;> rfl

@[simp] theorem item?_bare (reading : Reading) : reading.bare.item? = reading.item? := by
  cases reading <;> rfl

@[simp] theorem rest?_behind (more : List UInt8) (reading : Reading) :
    (reading.behind more).rest? = reading.rest?.map (· ++ more) := by
  cases reading <;> rfl

/-- Readings that differ in nothing but what is behind them tell the same. -/
theorem filterMap_item?_bare (readings : List Reading) :
    (readings.map bare).filterMap item? = readings.filterMap item? := by
  rw [List.filterMap_map]
  exact List.filterMap_congr fun reading _ => item?_bare reading

theorem filterMap_item?_snoc (readings : List Reading) (reading : Reading) :
    (readings ++ [reading]).filterMap item? = readings.filterMap item? ++ reading.item?.toList := by
  rw [List.filterMap_append]
  cases hitem : reading.item? <;> simp [hitem]

end Reading

/-! ### A header, line by line -/

variable {size : Nat} {announced : Option Nat} {visible rest : List UInt8} {ended : Bool}

theorem readFrom_of_splitLine?_none (h : splitLine? visible = none) (ended : Bool)
    (announced : Option Nat) :
    readFrom ended announced visible =
      if !ended then .incomplete
      else if visible.isEmpty then atEnd announced
      else readLastLine announced visible := by
  rw [readFrom]
  split
  · rfl
  · rename_i hline
    rw [h] at hline
    cases hline

theorem readFrom_of_error {line : List UInt8} {e : SessionError} (hline : IsLine line)
    (h : HeaderLine.ofBytes line = .error e) (ended : Bool) (announced : Option Nat)
    (input : List UInt8) : readFrom ended announced (line ++ input) = .failed e := by
  rw [readFrom]
  split
  · rename_i hnone
    rw [splitLine?_of_isLine hline] at hnone
    cases hnone
  · rename_i line' rest hsome
    rw [splitLine?_of_isLine hline] at hsome
    cases hsome
    rw [h]

/-- A reader goes along the lines of a header: it comes to where no line ends, to a line that is no
header line, to the blank line before a body, or it goes on behind a line. -/
@[elab_as_elim]
theorem lines_induction {motive : Option Nat → List UInt8 → Prop}
    (unended : ∀ announced input, splitLine? input = none → motive announced input)
    (fault : ∀ announced line input e, IsLine line → HeaderLine.ofBytes line = .error e →
      motive announced (line ++ input))
    (body : ∀ size line input, HeaderLine.Tells line .blank → motive (some size) (line ++ input))
    (goes : ∀ announced next line input,
      (∀ ended rest, readFrom ended announced (line ++ rest) = readFrom ended next rest) →
        motive next input → motive announced (line ++ input))
    (announced : Option Nat) (input : List UInt8) : motive announced input := by
  -- On the length of the input: each line that is read leaves less of it.
  induction hlength : input.length using Nat.strong_induction_on generalizing announced input with
  | _ n ih =>
      subst hlength
      cases hsplit : splitLine? input with
      | none => exact unended announced input hsplit
      | some found =>
          obtain ⟨line, rest⟩ := found
          have hshorter := length_lt_of_splitLine? hsplit
          have hline := isLine_of_splitLine? hsplit
          obtain rfl := splitLine?_append hsplit
          cases hsaid : HeaderLine.ofBytes line with
          | error e => exact fault announced line rest e hline hsaid
          | ok said =>
              have htells := HeaderLine.tells_of_ofBytes hline hsaid
              cases said with
              | blank =>
                  cases announced with
                  | none =>
                      exact goes none none line rest (fun ended => readFrom_line htells ended none)
                        (ih _ hshorter _ _ rfl)
                  | some size => exact body size line rest htells
              | contentLength size =>
                  exact goes announced (some size) line rest
                    (fun ended => readFrom_line htells ended announced) (ih _ hshorter _ _ rfl)
              | other =>
                  refine goes announced announced line rest (fun ended input => ?_)
                    (ih _ hshorter _ _ rfl)
                  rw [readFrom_line htells]

/-! ### More behind what can be read -/

/-- A body that is there to its end is read without what is behind it. -/
theorem readBody_more (h : readBody false size visible ≠ .incomplete) (ended : Bool)
    (more : List UInt8) :
    readBody ended size (visible ++ more) = (readBody false size visible).behind more := by
  have hboth : size ≤ visible.length → ¬ (visible ++ more).length < size := by
    rw [List.length_append]
    omega
  generalize hreading : readBody false size visible = reading at h
  cases ofBody_of_readBody hreading with
  | tooLarge hlarge => simp [readBody, hlarge, Reading.behind]
  | endsEarly hfits hshort hended => cases hended
  | incomplete hfits hshort => exact absurd rfl h
  | message value hfits hlong hvalue =>
      rw [readBody, if_neg (Nat.not_le.mpr hfits), if_neg (hboth hlong),
        List.take_append_of_le_length hlong, List.drop_append_of_le_length hlong, hvalue]
      rfl
  | invalid hfits hlong hvalue =>
      rw [readBody, if_neg (Nat.not_le.mpr hfits), if_neg (hboth hlong),
        List.take_append_of_le_length hlong, List.drop_append_of_le_length hlong, hvalue]
      rfl

/-- Each line of the front is there to its end, or the reading waits for it. -/
theorem readFrom_more (h : readFrom false announced visible ≠ .incomplete) (ended : Bool)
    (more : List UInt8) :
    readFrom ended announced (visible ++ more) = (readFrom false announced visible).behind more := by
  induction announced, visible using lines_induction with
  | unended announced visible hnone =>
      rw [readFrom_of_splitLine?_none hnone] at h
      exact absurd rfl h
  | fault announced line visible e hline hfault =>
      rw [List.append_assoc, readFrom_of_error hline hfault, readFrom_of_error hline hfault]
      rfl
  | body size line visible htells =>
      rw [readFrom_line htells] at h
      rw [List.append_assoc, readFrom_line htells, readFrom_line htells]
      exact readBody_more h ended more
  | goes announced next line visible hgoes ih =>
      rw [hgoes] at h
      rw [List.append_assoc, hgoes, hgoes]
      exact ih h

/-- **What can be read at the front of a stream stays the same when more arrives**, and when the
stream has ended behind that. -/
theorem read_more (h : read false visible ≠ .incomplete) (ended : Bool) (more : List UInt8) :
    read ended (visible ++ more) = (read false visible).behind more :=
  readFrom_more h ended more

/-- The same for a stream that may have ended already, when nothing more arrives then. -/
theorem read_behind {more : List UInt8} (h : read ended visible ≠ .incomplete)
    (hended : ended → more = []) :
    read true (visible ++ more) = (read ended visible).behind more := by
  cases ended with
  | false => exact read_more h true more
  | true =>
      rw [hended rfl, List.append_nil]
      cases read true visible <;> simp [Reading.behind]

/-! ### At the end of a stream -/

theorem readBody_ne_incomplete (size : Nat) (input : List UInt8) :
    readBody true size input ≠ .incomplete := by
  intro h
  cases ofBody_of_readBody h with
  | incomplete hfits hshort hopen => cases hopen

theorem readLastLine_ne_incomplete (announced : Option Nat) (line : List UInt8) :
    readLastLine announced line ≠ .incomplete := by
  unfold readLastLine
  split
  · rintro ⟨⟩
  · split
    · exact readBody_ne_incomplete _ _
    · rintro ⟨⟩
  · rintro ⟨⟩
  · cases announced <;> rintro ⟨⟩

/-- A stream that has ended is not waited for. -/
theorem readFrom_ne_incomplete (announced : Option Nat) (input : List UInt8) :
    readFrom true announced input ≠ .incomplete := by
  induction announced, input using lines_induction with
  | unended announced input hnone =>
      rw [readFrom_of_splitLine?_none hnone]
      simp only [Bool.not_true, Bool.false_eq_true, if_false]
      split
      · cases announced <;> nofun
      · exact readLastLine_ne_incomplete _ _
  | fault announced line input e hline hfault =>
      rw [readFrom_of_error hline hfault]
      nofun
  | body size line input htells =>
      rw [readFrom_line htells]
      exact readBody_ne_incomplete _ _
  | goes announced next line input hgoes ih => rwa [hgoes]

/-! ### One reading after the other -/

theorem rest_suffix_of_readBody (h : (readBody ended size visible).rest? = some rest) :
    rest <:+ visible := by
  generalize hreading : readBody ended size visible = reading at h
  cases ofBody_of_readBody hreading with
  | tooLarge hlarge => cases h
  | endsEarly hfits hshort hended => cases h
  | incomplete hfits hshort hopen => cases h
  | message value hfits hlong hvalue =>
      cases h
      exact List.drop_suffix _ _
  | invalid hfits hlong hvalue =>
      cases h
      exact List.drop_suffix _ _

theorem rest_of_readLastLine {line : List UInt8}
    (h : (readLastLine announced line).rest? = some rest) : rest = [] := by
  unfold readLastLine at h
  split at h
  · cases h
  · split at h
    · exact List.suffix_nil.mp (rest_suffix_of_readBody h)
    · cases h
  · cases h
  · cases announced <;> cases h

/-- A reading that takes something off the stream takes at least a byte. -/
theorem length_lt_of_readFrom (h : (readFrom ended announced visible).rest? = some rest) :
    rest.length < visible.length := by
  induction announced, visible using lines_induction with
  | unended announced visible hnone =>
      rw [readFrom_of_splitLine?_none hnone] at h
      split at h
      · cases h
      · split at h
        · cases announced <;> cases h
        · rename_i hfull
          rw [rest_of_readLastLine h]
          exact List.length_pos_iff.mpr fun hnil => hfull (List.isEmpty_iff.mpr hnil)
  | fault announced line visible e hline hfault =>
      rw [readFrom_of_error hline hfault] at h
      cases h
  | body size line visible htells =>
      rw [readFrom_line htells] at h
      obtain ⟨letters, rfl, -⟩ := htells.isLine
      have htail := (rest_suffix_of_readBody h).length_le
      simp only [List.length_append, List.length_singleton]
      omega
  | goes announced next line visible hgoes ih =>
      rw [hgoes] at h
      have hless := ih h
      rw [List.length_append]
      omega

theorem length_lt_of_rest? (h : (read ended visible).rest? = some rest) :
    rest.length < visible.length :=
  length_lt_of_readFrom h

/-- As much fuel as there are bytes suffices, and more does not matter. -/
theorem readUpTo_of_lt {fuel : Nat} {input : List UInt8} (h : input.length < fuel) :
    readUpTo fuel input = readAll input := by
  suffices hsame : ∀ fuel more : Nat, ∀ input : List UInt8, input.length < fuel →
      input.length < more → readUpTo fuel input = readUpTo more input from
    hsame fuel _ input h (Nat.lt_succ_self _)
  intro fuel
  induction fuel with
  | zero => exact fun more input hnone => absurd hnone (Nat.not_lt_zero _)
  | succ fuel ih =>
      intro more input hfuel hmore
      cases more with
      | zero => exact absurd hmore (Nat.not_lt_zero _)
      | succ more =>
          rw [readUpTo, readUpTo]
          split
          · rename_i rest hrest
            have hshorter := length_lt_of_rest? hrest
            rw [ih more rest (by omega) (by omega)]
          · rfl

/-- The readings of a stream are the first of them and those of the rest. -/
theorem readAll_eq (input : List UInt8) :
    readAll input = read true input :: (read true input).rest?.elim [] readAll := by
  rw [readAll, readUpTo]
  split
  · rename_i rest hrest
    rw [hrest, readUpTo_of_lt (length_lt_of_rest? hrest)]
    rfl
  · rename_i hnone
    rw [hnone]
    rfl

/-- What the readings of a whole stream find, whatever is behind them. -/
def findings (stream : List UInt8) : List Reading := (readAll stream).map Reading.bare

/-- What can be read at the front of a stream is the first that is found in it, whatever follows. -/
theorem findings_of_read {more : List UInt8} (h : read ended visible ≠ .incomplete)
    (hended : ended → more = []) :
    findings (visible ++ more) = (read ended visible).bare ::
      (read ended visible).rest?.elim [] fun rest => findings (rest ++ more) := by
  rw [findings, readAll_eq, read_behind h hended, List.map_cons, Reading.bare_behind,
    Reading.rest?_behind]
  cases (read ended visible).rest? <;> rfl

end Frame
end LanguageClient
