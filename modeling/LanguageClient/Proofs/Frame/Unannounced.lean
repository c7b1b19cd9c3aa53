import LanguageClient.Proofs.Frame.Pieces
import LanguageClient.Proofs.Frame.Stream

/-!
# Headers that announce no length

A header is open as long as no empty line stands behind a length.  Until a length is announced no
line ends it: lines that announce none are passed over, whatever they say and however many empty
ones are among them, and what follows them is read as if they were not there.  So a stream of such
lines ends like an empty one, and the reader has no fault to report for a length that is missing.

* `Frame.IsBare`, `Frame.IsOpen` — lines without a length, and lines that end no header.
* `Frame.Spells` — what the lines of a whole stream tell; the last one may lack its line feed.
* `HeaderLine.Lacks`, `Frame.Spoils` — a line that is no header line, and the fault of it.
* `Frame.header_induction` — a reader goes along an open header to whatever ends it.
* `Frame.read_cases` — how the reading of a stream that has ended comes to its end.
* **`Frame.read_of_missing_length`** — lines without a length are passed over; a stream that has
  ended is found finished exactly when it holds nothing else, and a breach of the framing rules is
  found exactly where a line is no header line or where a length was announced for nothing.
-/

namespace LanguageClient

/-! ### Lines that are no header lines -/

theorem not_mem_of_splitLine?_none {bs : List UInt8} (h : splitLine? bs = none) : 10 ∉ bs := by
  induction bs with
  | nil => exact List.not_mem_nil
  | cons b bs ih =>
      unfold splitLine? at h
      split at h
      · cases h
      · rename_i hb
        rw [List.mem_cons, not_or]
        exact ⟨fun heq => hb heq.symm, ih (Option.map_eq_none_iff.mp h)⟩

namespace HeaderLine

/-- What the text of a line lacks that is no header line. -/
inductive Lacks : String → ProtocolFault → Prop
  | colon {text : String} (hfull : text ≠ "") (hcolon : ':' ∉ text.toList) :
      Lacks text (.malformedHeader text)
  | length {name value : String} (hcolon : ':' ∉ name.toList)
      (hname : Text.equalIgnoringCase (Text.trim name) contentLengthName)
      (hsize : Text.wordOf? (Text.trim value) = none) :
      Lacks (name ++ ":" ++ value) (.invalidLength (Text.trim value))

theorem ofText_eq_error_iff {line : String} {e : SessionError} :
    ofText line = .error e ↔ ∃ fault : ProtocolFault, e = .protocol fault ∧ Lacks line fault := by
  constructor
  · intro h
    unfold ofText at h
    split at h
    · cases h
    · rename_i hfull
      split at h
      · rename_i hsplit
        cases h
        refine ⟨_, rfl, .colon ?_ (Text.splitOnFirst_eq_none_iff.mp hsplit)⟩
        exact fun heq => hfull (String.isEmpty_iff.mpr heq)
      · rename_i name value hsplit
        obtain ⟨rfl, hcolon⟩ := Text.splitOnFirst_colon_iff.mp hsplit
        split at h
        · rename_i hname
          split at h
          · cases h
          · rename_i hsize
            cases h
            exact ⟨_, rfl, .length hcolon hname hsize⟩
        · cases h
  · rintro ⟨fault, rfl, hlacks⟩
    cases hlacks with
    | colon hfull hcolon =>
        have hsplit := Text.splitOnFirst_eq_none_iff.mpr hcolon
        simp [ofText, String.isEmpty_eq_false_iff.mpr hfull, hsplit]
    | @length name value hcolon hname hsize =>
        have hfull : (name ++ ":" ++ value).isEmpty = false := by
          simp [String.isEmpty_eq_false_iff]
        simp [ofText, hfull, Text.splitOnFirst_colon_iff.mpr ⟨rfl, hcolon⟩, hname, hsize]

/-- Only a text can lack something. -/
theorem ofBytes_eq_protocol_iff {line : List UInt8} {fault : ProtocolFault} :
    ofBytes line = .error (.protocol fault) ↔
      ∃ text : String, Text.ofBytes? line = some text ∧ Lacks (Text.trim text) fault := by
  unfold ofBytes
  cases htext : Text.ofBytes? line with
  | none => simp
  | some text => simp [ofText_eq_error_iff]

end HeaderLine

namespace Frame

/-! ### Open headers -/

/-- No line announces a length. -/
def IsBare (said : List HeaderLine) : Prop := ∀ line ∈ said, line.size? = none

instance : DecidablePred IsBare :=
  fun said => inferInstanceAs (Decidable (∀ line ∈ said, line.size? = none))

/-- No line ends a header: an empty one would have to stand behind a length. -/
def IsOpen (said : List HeaderLine) : Prop :=
  said.Pairwise fun line later => line.size? ≠ none → later ≠ .blank

/-- The length that lines announce: of several the last one holds. -/
def length? (said : List HeaderLine) : Option Nat := (said.filterMap HeaderLine.size?).getLast?

theorem length?_snoc (said : List HeaderLine) (line : HeaderLine) :
    length? (said ++ [line]) = line.size?.or (length? said) := by
  unfold length?
  cases hsize : line.size? <;> simp [hsize]

theorem length?_eq_none_iff {said : List HeaderLine} : length? said = none ↔ IsBare said := by
  simp [length?, IsBare]

theorem isOpen_of_isBare {said : List HeaderLine} (h : IsBare said) : IsOpen said :=
  List.pairwise_of_forall_mem_list fun line hline _ _ hsize => absurd (h line hline) hsize

/-- An empty line behind lines of an open header: they have announced nothing. -/
theorem isBare_of_isOpen_snoc {said : List HeaderLine} (h : IsOpen (said ++ [.blank])) :
    IsBare said := by
  intro line hline
  by_contra hsize
  exact (List.pairwise_append.mp h).2.2 line hline .blank (by simp) hsize rfl

/-- Any other line leaves the header open. -/
theorem isOpen_snoc {said : List HeaderLine} {line : HeaderLine} (h : IsOpen said)
    (hline : ¬ (line = .blank ∧ length? said ≠ none)) : IsOpen (said ++ [line]) := by
  refine List.pairwise_append.mpr ⟨h, List.pairwise_singleton _ _, ?_⟩
  intro earlier hearlier later hlater hsize hblank
  rw [List.mem_singleton.mp hlater] at hblank
  exact hline ⟨hblank, fun hnone => hsize (length?_eq_none_iff.mp hnone earlier hearlier)⟩

theorem isOpen_front {said more : List HeaderLine} (h : IsOpen (said ++ more)) : IsOpen said :=
  (List.pairwise_append.mp h).1

/-! ### Whole streams -/

/-- What the last line of a stream tells that has no line feed. -/
structure Trails (line : List UInt8) (said : HeaderLine) : Prop where
  full : line ≠ []
  unended : 10 ∉ line
  text : ∃ text : String, Text.ofBytes? line = some text ∧ HeaderLine.Says (Text.trim text) said

/-- What the lines of a stream tell, from its beginning to its end. -/
inductive Spells : List UInt8 → List HeaderLine → Prop
  | nil : Spells [] []
  | trail {line : List UInt8} {said : HeaderLine} (h : Trails line said) : Spells line [said]
  | line {line input : List UInt8} {said : HeaderLine} {more : List HeaderLine}
      (h : HeaderLine.Tells line said) (hmore : Spells input more) :
      Spells (line ++ input) (said :: more)

/-- A line in front of the rest of a stream that is no header line; if it lacks its line feed there
is no rest. -/
structure Spoils (line rest : List UInt8) (fault : ProtocolFault) : Prop where
  isLine : IsLine line ∨ line ≠ [] ∧ 10 ∉ line ∧ rest = []
  text : ∃ text : String, Text.ofBytes? line = some text ∧
    HeaderLine.Lacks (Text.trim text) fault

/-! ### Going along an open header -/

variable {before said : List HeaderLine} {lines : List (List UInt8)} {input line : List UInt8}
  {ended : Bool}

/-- The next line of an open header is taken off; the lines before it matter by their length. -/
theorem readFrom_open_line {line : List UInt8} {now : HeaderLine}
    (hline : HeaderLine.Tells line now) (hopen : IsOpen (before ++ [now])) (ended : Bool)
    (rest : List UInt8) :
    readFrom ended (length? before) (line ++ rest) =
      readFrom ended (length? (before ++ [now])) rest := by
  rw [readFrom_line hline, length?_snoc]
  cases now with
  | blank => rw [length?_eq_none_iff.mpr (isBare_of_isOpen_snoc hopen)]; rfl
  | contentLength size => rfl
  | other => rfl

/-- So are all the lines of an open header. -/
theorem readFrom_open (before : List HeaderLine) (hlines : List.Forall₂ HeaderLine.Tells lines said)
    (hopen : IsOpen (before ++ said)) (ended : Bool) (rest : List UInt8) :
    readFrom ended (length? before) (lines.flatten ++ rest) =
      readFrom ended (length? (before ++ said)) rest := by
  induction hlines generalizing before with
  | nil => simp
  | @cons line now lines said hline hlines ih =>
      rw [List.append_cons] at hopen ⊢
      rw [List.flatten_cons, List.append_assoc, readFrom_open_line hline (isOpen_front hopen),
        ih _ hopen]

theorem ofBytes_of_trails {now : HeaderLine} (h : Trails line now) :
    HeaderLine.ofBytes line = .ok now := by
  obtain ⟨text, htext, hsays⟩ := h.text
  simp only [HeaderLine.ofBytes, htext]
  exact HeaderLine.ofText_eq_ok_iff.mpr hsays

theorem trails_of_ofBytes {now : HeaderLine} (hfull : line ≠ []) (hunended : 10 ∉ line)
    (h : HeaderLine.ofBytes line = .ok now) : Trails line now := by
  refine ⟨hfull, hunended, ?_⟩
  unfold HeaderLine.ofBytes at h
  split at h
  · rename_i text htext
    exact ⟨text, htext, HeaderLine.ofText_eq_ok_iff.mp h⟩
  · cases h

theorem readLastLine_open {now : HeaderLine} (hline : Trails line now)
    (hopen : IsOpen (before ++ [now])) :
    readLastLine (length? before) line = atEnd (length? (before ++ [now])) := by
  simp only [length?_snoc, readLastLine, ofBytes_of_trails hline]
  cases now with
  | blank => rw [length?_eq_none_iff.mpr (isBare_of_isOpen_snoc hopen)]; rfl
  | contentLength size => rfl
  | other => rfl

/-- A stream that has ended and holds nothing but an open header ends where that ends. -/
theorem readFrom_of_spells (before : List HeaderLine) (hspells : Spells input said)
    (hopen : IsOpen (before ++ said)) :
    readFrom true (length? before) input = atEnd (length? (before ++ said)) := by
  induction hspells generalizing before with
  | nil =>
      have hnone : splitLine? [] = none := rfl
      simp [readFrom_of_splitLine?_none hnone]
  | trail htrails =>
      rw [readFrom_of_splitLine?_none (splitLine?_of_not_mem htrails.unended)]
      simp [htrails.full, readLastLine_open htrails hopen]
  | line hline hmore ih =>
      rw [List.append_cons] at hopen ⊢
      rw [readFrom_open_line hline (isOpen_front hopen), ih _ hopen]

/-- A line that is no header line is reported; the last one of a stream needs no line feed. -/
theorem readFrom_of_fault {rest : List UInt8} {e : SessionError}
    (hline : IsLine line ∨ ended ∧ line ≠ [] ∧ 10 ∉ line ∧ rest = [])
    (hfault : HeaderLine.ofBytes line = .error e) (announced : Option Nat) :
    readFrom ended announced (line ++ rest) = .failed e := by
  rcases hline with hline | ⟨rfl, hfull, hunended, rfl⟩
  · exact readFrom_of_error hline hfault ended announced rest
  · rw [List.append_nil, readFrom_of_splitLine?_none (splitLine?_of_not_mem hunended)]
    simp [hfull, readLastLine, hfault]

theorem readFrom_of_spoils {rest : List UInt8} {fault : ProtocolFault}
    (h : Spoils line rest fault) (announced : Option Nat) :
    readFrom true announced (line ++ rest) = .failed (.protocol fault) :=
  readFrom_of_fault (h.isLine.imp_right fun hlast => ⟨rfl, hlast⟩)
    (HeaderLine.ofBytes_eq_protocol_iff.mpr h.text) announced

/-- An empty line behind a length is taken off, and the body is read. -/
theorem readFrom_of_blank {rest : List UInt8}
    (hline : HeaderLine.Tells line .blank ∨ ended ∧ Trails line .blank ∧ rest = []) (size : Nat) :
    readFrom ended (some size) (line ++ rest) = readBody ended size rest := by
  rcases hline with hline | ⟨rfl, hline, rfl⟩
  · exact readFrom_line hline ended (some size) rest
  · rw [List.append_nil, readFrom_of_splitLine?_none (splitLine?_of_not_mem hline.unended)]
    simp [hline.full, readLastLine, ofBytes_of_trails hline]

/-- A line leaves the header open, unless it is an empty one behind a length. -/
theorem blank_or_isOpen_snoc (hopen : IsOpen before) (now : HeaderLine) :
    (now = .blank ∧ ∃ size, length? before = some size) ∨ IsOpen (before ++ [now]) := by
  by_cases hbody : now = .blank ∧ length? before ≠ none
  · exact .inl ⟨hbody.1, Option.ne_none_iff_exists'.mp hbody.2⟩
  · exact .inr (isOpen_snoc hopen hbody)

/-- A reader goes along an open header to where the bytes are used up or no line ends, to a line that
is no header line, or to an empty line behind a length.  The last line of a stream that has ended
needs no line feed. -/
@[elab_as_elim]
theorem header_induction (ended : Bool) {motive : List HeaderLine → List UInt8 → Prop}
    (waits : ∀ before input, ended = false → splitLine? input = none → motive before input)
    (finishes : ∀ before, ended → IsOpen before → motive before [])
    (trails : ∀ before now line, ended → Trails line now → IsOpen (before ++ [now]) →
      motive before line)
    (spoilt : ∀ before line rest e, IsOpen before →
      IsLine line ∨ ended ∧ line ≠ [] ∧ 10 ∉ line ∧ rest = [] → HeaderLine.ofBytes line = .error e →
      motive before (line ++ rest))
    (blank : ∀ before size line rest, IsOpen before → length? before = some size →
      HeaderLine.Tells line .blank ∨ ended ∧ Trails line .blank ∧ rest = [] →
      motive before (line ++ rest))
    (goes : ∀ before now line rest, HeaderLine.Tells line now → IsOpen (before ++ [now]) →
      motive (before ++ [now]) rest → motive before (line ++ rest))
    (before : List HeaderLine) (hopen : IsOpen before) (input : List UInt8) :
    motive before input := by
  -- On the length of the bytes: every line takes something off them.
  induction hlength : input.length using Nat.strong_induction_on generalizing before input with
  | _ n ih =>
      subst hlength
      cases hsplit : splitLine? input with
      | none =>
          cases hended : ended with
          | false => exact waits before input hended hsplit
          | true =>
              by_cases hempty : input = []
              · subst hempty
                exact finishes before hended hopen
              · have hunended := not_mem_of_splitLine?_none hsplit
                cases hsaid : HeaderLine.ofBytes input with
                | error e =>
                    rw [← List.append_nil input]
                    exact spoilt before input [] e hopen (.inr ⟨hended, hempty, hunended, rfl⟩) hsaid
                | ok now =>
                    have htrails := trails_of_ofBytes hempty hunended hsaid
                    rcases blank_or_isOpen_snoc hopen now with ⟨rfl, size, hsize⟩ | hnext
                    · rw [← List.append_nil input]
                      exact blank before size input [] hopen hsize (.inr ⟨hended, htrails, rfl⟩)
                    · exact trails before now input hended htrails hnext
      | some found =>
          obtain ⟨line, rest⟩ := found
          have hshorter := length_lt_of_splitLine? hsplit
          have hline := isLine_of_splitLine? hsplit
          obtain rfl := splitLine?_append hsplit
          cases hsaid : HeaderLine.ofBytes line with
          | error e => exact spoilt before line rest e hopen (.inl hline) hsaid
          | ok now =>
              have htells := HeaderLine.tells_of_ofBytes hline hsaid
              rcases blank_or_isOpen_snoc hopen now with ⟨rfl, size, hsize⟩ | hnext
              · exact blank before size line rest hopen hsize (.inl htells)
              · exact goes before now line rest htells hnext (ih _ hshorter _ hnext rest rfl)

/-! ### How a reading ends -/

/-- The reading of a stream that has ended goes along an open header to the end of the stream, to a
line that is no header line, or to an empty line behind a length, where the body begins. -/
inductive Halts (before : List HeaderLine) (input : List UInt8) : Reading → Prop
  | atEnd {said : List HeaderLine} (hspells : Spells input said)
      (hopen : IsOpen (before ++ said)) : Halts before input (atEnd (length? (before ++ said)))
  | fault {lines : List (List UInt8)} {said : List HeaderLine} {line rest : List UInt8}
      {e : SessionError} (hlines : List.Forall₂ HeaderLine.Tells lines said)
      (hopen : IsOpen (before ++ said)) (hline : IsLine line ∨ line ≠ [] ∧ 10 ∉ line ∧ rest = [])
      (hfault : HeaderLine.ofBytes line = .error e)
      (hinput : input = lines.flatten ++ line ++ rest) : Halts before input (.failed e)
  | body (size : Nat) (rest : List UInt8) : Halts before input (readBody true size rest)

/-- One more line in front of the header. -/
theorem Halts.cons {reading : Reading} {now : HeaderLine} (hline : HeaderLine.Tells line now)
    (h : Halts (before ++ [now]) input reading) : Halts before (line ++ input) reading := by
  cases h with
  | atEnd hspells hopen =>
      rw [← List.append_cons] at hopen ⊢
      exact .atEnd (.line hline hspells) hopen
  | fault hlines hopen hspoilt hfault hinput =>
      rw [← List.append_cons] at hopen
      exact .fault (.cons hline hlines) hopen hspoilt hfault (by simp [hinput])
  | body size rest => exact .body size rest

theorem halts_readFrom (hopen : IsOpen before) :
    Halts before input (readFrom true (length? before) input) := by
  refine header_induction true ?waits ?finishes ?trails ?spoilt ?blank ?goes before hopen
    input
  case waits => exact fun _ _ hnever => nomatch hnever
  case finishes =>
    intro before _ hopen
    rw [← List.append_nil before] at hopen
    rw [readFrom_of_spells before .nil hopen]
    exact .atEnd .nil hopen
  case trails =>
    intro before now line _ htrails hnext
    rw [readFrom_of_spells before (.trail htrails) hnext]
    exact .atEnd (.trail htrails) hnext
  case spoilt =>
    intro before line rest e hopen hline hsaid
    rw [readFrom_of_fault hline hsaid]
    exact .fault .nil (by simpa using hopen) (hline.imp_right And.right) hsaid rfl
  case blank =>
    intro before size line rest hopen hsize hline
    rw [hsize, readFrom_of_blank hline]
    exact .body size rest
  case goes =>
    intro before now line rest htells hnext ih
    rw [readFrom_open_line htells hnext]
    exact ih.cons htells

/-- How the reading of a stream that has ended comes to its end. -/
theorem read_cases (input : List UInt8) : Halts [] input (read true input) :=
  halts_readFrom .nil

/-- A header that announces nothing is passed over. -/
theorem read_of_isBare (hlines : List.Forall₂ HeaderLine.Tells lines said) (hbare : IsBare said)
    (ended : Bool) (rest : List UInt8) : read ended (lines.flatten ++ rest) = read ended rest := by
  have hpassed := readFrom_open [] hlines (isOpen_of_isBare hbare) ended rest
  rwa [List.nil_append, length?_eq_none_iff.mpr hbare] at hpassed

theorem read_of_spells (hspells : Spells input said) (hopen : IsOpen said) :
    read true input = atEnd (length? said) :=
  readFrom_of_spells [] hspells hopen

/-- Nothing but lines without a length: the stream is found finished. -/
theorem read_eq_finished (hspells : Spells input said) (hbare : IsBare said) :
    read true input = .finished := by
  rw [read_of_spells hspells (isOpen_of_isBare hbare), length?_eq_none_iff.mpr hbare]
  rfl

theorem read_finished_iff :
    read true input = .finished ↔ ∃ said : List HeaderLine, Spells input said ∧ IsBare said := by
  constructor
  · intro h
    generalize hreading : read true input = reading at h
    cases hreading ▸ read_cases input with
    | @atEnd said hspells hopen =>
        refine ⟨said, hspells, length?_eq_none_iff.mp ?_⟩
        cases hlength : length? said with
        | none => rfl
        | some size =>
            rw [List.nil_append, hlength] at h
            cases h
    | fault => cases h
    | body size rest => cases ofBody_of_readBody h
  · rintro ⟨said, hspells, hbare⟩
    exact read_eq_finished hspells hbare

/-- A header is cut when the stream ends in it and a length was announced. -/
def IsCut (input : List UInt8) : Prop :=
  ∃ said : List HeaderLine, Spells input said ∧ IsOpen said ∧ ¬ IsBare said

/-- The first line of a stream that is no header line stands where a header is open. -/
def IsMalformed (input : List UInt8) (fault : ProtocolFault) : Prop :=
  ∃ (lines : List (List UInt8)) (said : List HeaderLine) (line rest : List UInt8),
    List.Forall₂ HeaderLine.Tells lines said ∧ IsOpen said ∧ Spoils line rest fault ∧
      input = lines.flatten ++ line ++ rest

theorem read_protocol_iff {fault : ProtocolFault} :
    read true input = .failed (.protocol fault) ↔
      (fault = .headerCut ∧ IsCut input) ∨ IsMalformed input fault := by
  constructor
  · intro h
    generalize hreading : read true input = reading at h
    cases hreading ▸ read_cases input with
    | @atEnd said hspells hopen =>
        rw [List.nil_append] at h hopen
        cases hlength : length? said with
        | none =>
            rw [hlength] at h
            cases h
        | some size =>
            rw [hlength] at h
            cases h
            refine .inl ⟨rfl, said, hspells, hopen, fun hbare => ?_⟩
            rw [length?_eq_none_iff.mpr hbare] at hlength
            cases hlength
    | @fault lines said line rest e hlines hopen hline hfault hinput =>
        cases h
        exact .inr ⟨lines, said, line, rest, hlines, hopen,
          ⟨hline, HeaderLine.ofBytes_eq_protocol_iff.mp hfault⟩, hinput⟩
    | body size rest => cases ofBody_of_readBody h
  · rintro (⟨rfl, said, hspells, hopen, hlength⟩ | ⟨lines, said, line, rest, hlines, hopen,
      hspoils, rfl⟩)
    · rw [read_of_spells hspells hopen]
      obtain ⟨size, hsize⟩ := Option.ne_none_iff_exists'.mp (mt length?_eq_none_iff.mp hlength)
      rw [hsize]
      rfl
    · rw [List.append_assoc]
      exact (readFrom_open [] hlines hopen true (line ++ rest)).trans
        (readFrom_of_spoils hspoils _)

/-- **A header that announces no length is no error.**  Its lines are passed over, empty ones among
them, and whatever follows is read as if they were not there; a stream that has ended is found
finished exactly when it holds no other lines.  What is found to break the rules is a line that is
no header line, or the end of the stream behind a length. -/
theorem read_of_missing_length (input : List UInt8) (fault : ProtocolFault) :
    (∀ (ended : Bool) (lines : List (List UInt8)) (said : List HeaderLine),
        List.Forall₂ HeaderLine.Tells lines said → IsBare said →
          read ended (lines.flatten ++ input) = read ended input) ∧
      (read true input = .finished ↔
        ∃ said : List HeaderLine, Spells input said ∧ IsBare said) ∧
      (read true input = .failed (.protocol fault) ↔
        (fault = .headerCut ∧ IsCut input) ∨ IsMalformed input fault) :=
  ⟨fun ended _ _ hlines hbare => read_of_isBare hlines hbare ended input,
    read_finished_iff, read_protocol_iff⟩

theorem tells_plain : HeaderLine.Tells (Text.bytes "Content-Type: text/plain\r\n") .other := by
  refine ⟨⟨Text.bytes "Content-Type: text/plain\r", by decide, by decide⟩, _,
    Text.ofBytes?_bytes _, ?_⟩
  have htext : Text.trim "Content-Type: text/plain\r\n" =
      "Content-Type" ++ ":" ++ " text/plain" := by decide +kernel
  rw [htext]
  exact .other (by decide) (by decide +kernel)

theorem tells_empty : HeaderLine.Tells (Text.bytes "\r\n") .blank :=
  HeaderLine.tells_of_ofBytes ⟨Text.bytes "\r", by decide, by decide⟩ rfl

/-- A header without a length, the empty line that ends it, and an object behind it. -/
theorem bare_header_before_a_body :
    let header := Text.bytes "Content-Type: text/plain\r\n"
    let blank := Text.bytes "\r\n"
    let body := Text.bytes "\x7b\"a\":1\x7d"
    HeaderLine.Tells header .other ∧ HeaderLine.Tells blank .blank ∧
      read true ([header, blank].flatten ++ body) = read true body := by
  intro header blank body
  have hbare : IsBare [.other, .blank] := by decide
  exact ⟨tells_plain, tells_empty, (read_of_missing_length body .headerCut).1 true [header, blank] _
    (.cons tells_plain (.cons tells_empty .nil)) hbare⟩

/-- The same stream is found finished, and so is each part of it that begins with the header: the
object is taken for one more line of it. -/
theorem bare_header_is_a_clean_end :
    let header := Text.bytes "Content-Type: text/plain\r\n"
    let blank := Text.bytes "\r\n"
    let body := Text.bytes "\x7b\"a\":1\x7d"
    Spells (header ++ []) [.other] ∧ read true (header ++ []) = .finished ∧
      Spells (header ++ (blank ++ [])) [.other, .blank] ∧
      read true (header ++ (blank ++ [])) = .finished ∧
      Spells (header ++ (blank ++ body)) [.other, .blank, .other] ∧
      read true (header ++ (blank ++ body)) = .finished := by
  intro header blank body
  have htext : Text.trim "\x7b\"a\":1\x7d" = "\x7b\"a\"" ++ ":" ++ "1\x7d" := by decide +kernel
  have hbody : Trails body .other := by
    refine ⟨by decide, by decide, _, Text.ofBytes?_bytes _, ?_⟩
    rw [htext]
    exact .other (by decide) (by decide +kernel)
  have hcut : Spells (header ++ []) [.other] := .line tells_plain .nil
  have hblock : Spells (header ++ (blank ++ [])) [.other, .blank] :=
    .line tells_plain (.line tells_empty .nil)
  have hwhole : Spells (header ++ (blank ++ body)) [.other, .blank, .other] :=
    .line tells_plain (.line tells_empty (.trail hbody))
  exact ⟨hcut, read_eq_finished hcut (by decide), hblock, read_eq_finished hblock (by decide),
    hwhole, read_eq_finished hwhole (by decide)⟩

end Frame
end LanguageClient
