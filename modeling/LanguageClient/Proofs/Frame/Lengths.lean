import LanguageClient.Proofs.Frame.Unannounced

/-!
# Headers and the bodies that they announce

A reading comes to a body exactly where an open header has announced a length and an empty line stands
behind it.  What is then read depends on the length and on what follows, and no other reading is like
it: a body that is cut off by the end of the stream is told from every fault of the header.

* `Frame.IsBlank`, `Frame.Announced` — a header, the length that it announces, and what follows.
* `Frame.Reading.Bodiless` — readings that come to no body.
* `Frame.readFrom_of_announced`, `Frame.bodiless_or_announced`, `Frame.read_iff` — a reading comes to
  no body, or to the one that is announced.
* **`Frame.read_tooLarge_iff`**, **`Frame.read_endsEarly_iff`** — lengths that no memory can be set
  aside for, and bodies that the stream does not hold.
-/

namespace LanguageClient
namespace Frame

/-! ### Announced bodies -/

/-- An empty line in front of the rest of a stream; when the stream has ended with the line, it may
lack its line feed. -/
def IsBlank (ended : Bool) (line rest : List UInt8) : Prop :=
  HeaderLine.Tells line .blank ∨ (ended ∧ Trails line .blank ∧ rest = [])

/-- Behind the lines `before` a stream goes on with an open header that has announced a body of a
size, with the empty line that ends it, and with the rest. -/
def Announced (ended : Bool) (before : List HeaderLine) (input : List UInt8) (size : Nat)
    (rest : List UInt8) : Prop :=
  ∃ (lines : List (List UInt8)) (said : List HeaderLine) (line : List UInt8),
    List.Forall₂ HeaderLine.Tells lines said ∧ IsOpen (before ++ said) ∧
      length? (before ++ said) = some size ∧ IsBlank ended line rest ∧
      input = lines.flatten ++ line ++ rest

/-- A reading that comes to no body: the header is not there to its end, the stream ends before it or
in it, or a line of it is no header line. -/
inductive Reading.Bodiless : Reading → Prop
  | incomplete : Bodiless .incomplete
  | finished : Bodiless .finished
  | protocol (fault : ProtocolFault) : Bodiless (.failed (.protocol fault))
  | notText (fault : Text.Utf8Fault) : Bodiless (.failed (.stream (.notText fault)))

variable {ended : Bool} {before said : List HeaderLine} {input line rest : List UInt8} {size : Nat}

/-! ### Reading what is announced -/

theorem readFrom_of_announced (h : Announced ended before input size rest) :
    readFrom ended (length? before) input = readBody ended size rest := by
  obtain ⟨lines, said, line, hlines, hopen, hsize, hblank, rfl⟩ := h
  rw [List.append_assoc, readFrom_open before hlines hopen, hsize, readFrom_of_blank hblank]

/-! ### Readings that come to no body -/

theorem bodiless_of_error {e : SessionError} (h : HeaderLine.ofBytes line = .error e) :
    Reading.Bodiless (.failed e) := by
  unfold HeaderLine.ofBytes at h
  split at h
  · obtain ⟨fault, rfl, -⟩ := HeaderLine.ofText_eq_error_iff.mp h
    exact .protocol fault
  · cases h
    exact .notText _

theorem bodiless_atEnd (announced : Option Nat) : (atEnd announced).Bodiless := by
  cases announced with
  | none => exact .finished
  | some size => exact .protocol .headerCut

/-- One more line in front of the header. -/
theorem Announced.cons {now : HeaderLine} (hline : HeaderLine.Tells line now)
    (h : Announced ended (before ++ [now]) input size rest) :
    Announced ended before (line ++ input) size rest := by
  obtain ⟨lines, said, blank, hlines, hopen, hsize, hblank, rfl⟩ := h
  rw [← List.append_cons] at hopen hsize
  exact ⟨line :: lines, now :: said, blank, .cons hline hlines, hopen, hsize, hblank, by simp⟩

/-- The empty line behind an open header that has announced a length. -/
theorem announced_of_isBlank (hopen : IsOpen before) (hsize : length? before = some size)
    (hblank : IsBlank ended line rest) : Announced ended before (line ++ rest) size rest :=
  ⟨[], [], line, .nil, by rwa [List.append_nil], by rwa [List.append_nil], hblank, rfl⟩

/-- A reading comes to no body, or to the one that is announced. -/
theorem bodiless_or_announced (hopen : IsOpen before) :
    (readFrom ended (length? before) input).Bodiless ∨
      ∃ size rest, Announced ended before input size rest := by
  refine header_induction ended ?waits ?finishes ?trails ?spoilt ?blank ?goes before hopen
    input
  case waits =>
    rintro before input rfl hnone
    rw [readFrom_of_splitLine?_none hnone]
    exact .inl .incomplete
  case finishes =>
    rintro before rfl hopen
    rw [← List.append_nil before] at hopen
    rw [readFrom_of_spells before .nil hopen]
    exact .inl (bodiless_atEnd _)
  case trails =>
    rintro before now line rfl htrails hnext
    rw [readFrom_of_spells before (.trail htrails) hnext]
    exact .inl (bodiless_atEnd _)
  case spoilt =>
    intro before line rest e _ hline hsaid
    rw [readFrom_of_fault hline hsaid]
    exact .inl (bodiless_of_error hsaid)
  case blank =>
    intro before size line rest hopen hsize hblank
    exact .inr ⟨size, rest, announced_of_isBlank hopen hsize hblank⟩
  case goes =>
    intro before now line rest htells hnext ih
    rw [readFrom_open_line htells hnext]
    exact ih.imp_right fun ⟨size, left, hannounced⟩ => ⟨size, left, hannounced.cons htells⟩

/-! ### Bodies that cannot be read -/

theorem readBody_tooLarge_iff : readBody ended size rest = .tooLarge ↔ sizeLimit ≤ size := by
  constructor
  · intro h
    cases ofBody_of_readBody h with
    | tooLarge hlarge => exact hlarge
  · intro hlarge
    rw [readBody, if_pos hlarge]

theorem readBody_endsEarly_iff : readBody ended size rest = .failed (.stream .endsEarly) ↔
    ended ∧ rest.length < size ∧ size < sizeLimit := by
  constructor
  · intro h
    cases ofBody_of_readBody h with
    | endsEarly hfits hshort hended => exact ⟨hended, hshort, hfits⟩
  · rintro ⟨hended, hshort, hfits⟩
    rw [readBody, if_neg (Nat.not_le.mpr hfits), if_pos hshort, if_pos hended]

/-- What is read of an announced body is found nowhere else. -/
theorem read_iff {reading : Reading} (hbody : ¬ reading.Bodiless) : read ended input = reading ↔
    ∃ size rest, Announced ended [] input size rest ∧ readBody ended size rest = reading := by
  constructor
  · intro h
    have hcases : (read ended input).Bodiless ∨ ∃ size rest, Announced ended [] input size rest :=
      bodiless_or_announced .nil
    rcases hcases with hnothing | ⟨size, rest, hannounced⟩
    · exact absurd (h ▸ hnothing) hbody
    · exact ⟨size, rest, hannounced, (readFrom_of_announced hannounced).symm.trans h⟩
  · rintro ⟨size, rest, hannounced, hread⟩
    exact (readFrom_of_announced hannounced).trans hread

/-- A length from the limit on is refused, whatever follows it; and nothing else is. -/
theorem read_tooLarge_iff : read ended input = .tooLarge ↔
    ∃ size rest, Announced ended [] input size rest ∧ sizeLimit ≤ size := by
  have hbody : ¬ Reading.Bodiless .tooLarge := nofun
  simp only [read_iff hbody, readBody_tooLarge_iff]

/-- The stream has ended in a body exactly when it holds less than what was announced. -/
theorem read_endsEarly_iff : read ended input = .failed (.stream .endsEarly) ↔
    ended ∧ ∃ size rest, Announced ended [] input size rest ∧ rest.length < size ∧
      size < sizeLimit := by
  have hbody : ¬ Reading.Bodiless (.failed (.stream .endsEarly)) := nofun
  simp only [read_iff hbody, readBody_endsEarly_iff]
  exact ⟨fun ⟨size, rest, hannounced, hended, hshort⟩ => ⟨hended, size, rest, hannounced, hshort⟩,
    fun ⟨hended, size, rest, hannounced, hshort⟩ => ⟨size, rest, hannounced, hended, hshort⟩⟩

end Frame
end LanguageClient
