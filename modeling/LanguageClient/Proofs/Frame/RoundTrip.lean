import LanguageClient.Proofs.Frame.Grammar
import LanguageClient.Proofs.Json.RoundTrip

/-!
# Messages read back

A header counts bytes, not characters, and its two lines are the only ones that are read as lines:
no text inside a body is mistaken for a header.

* `Text.bytes_of_ascii`, `Text.trim_between` — the bytes of plain characters, blanks around a text.
* `Frame.begins_header` — the header that is written announces its size.
* `Frame.IsLegible`, `Frame.IsWritable` — values that are read back from what is written of them.
* `Frame.Marks` — an object with the mark of a message, and any other value as it is.
* **`Frame.written_messages_read_back`** — messages written one behind the other are read back in
  order, and then the stream has ended.
-/

namespace LanguageClient

/-! ### Plain text -/

namespace Text

theorem bytes_append (s t : String) : bytes (s ++ t) = bytes s ++ bytes t := by
  simp [bytes]

/-- Plain characters are their own bytes. -/
theorem bytes_of_ascii {cs : List Char} (h : ∀ c ∈ cs, c.val ≤ 0x7F) :
    bytes (String.ofList cs) = cs.map fun c => c.val.toUInt8 := by
  have hbytes : bytes (String.ofList cs) = cs.flatMap String.utf8EncodeChar := by
    simp [bytes, List.utf8Encode]
  rw [hbytes]
  clear hbytes
  induction cs with
  | nil => rfl
  | cons c cs ih =>
      rw [List.forall_mem_cons] at h
      have hsize : c.utf8Size = 1 := by simp [Char.utf8Size, h.1]
      rw [List.flatMap_cons, String.utf8EncodeChar_eq_singleton hsize, ih h.2]
      rfl

/-- The bytes of plain characters hold a line feed only where a character is one. -/
theorem lineFeed_not_mem_bytes {cs : List Char} (h : ∀ c ∈ cs, c.val ≤ 0x7F) (hline : '\n' ∉ cs) :
    10 ∉ bytes (String.ofList cs) := by
  rw [bytes_of_ascii h, List.mem_map]
  rintro ⟨c, hc, hbyte⟩
  have hsmall : c.val.toNat ≤ 0x7F := h c hc
  have hvalue : c.val.toNat = 10 := by
    have hnat := congrArg UInt8.toNat hbyte
    rw [UInt32.toNat_toUInt8] at hnat
    have hten : (10 : UInt8).toNat = 10 := rfl
    rw [hten] at hnat
    omega
  have hchar : c = '\n' := Char.ext (UInt32.toNat_inj.mp hvalue)
  exact hline (hchar ▸ hc)

theorem trimStart_append {visible core : List Char} (hfront : ∀ c ∈ visible, isBlank c)
    (hfirst : ∀ c, core.head? = some c → isBlank c = false) : trimStart (visible ++ core) = core := by
  rw [trimStart, List.dropWhile_append_of_pos hfront]
  cases core with
  | nil => rfl
  | cons c rest => rw [List.dropWhile_cons, hfirst c rfl]; rfl

/-- Blanks around a text that neither begins nor ends with one are all that is taken off. -/
theorem trim_between (visible core back : List Char) (hfront : ∀ c ∈ visible, isBlank c)
    (hback : ∀ c ∈ back, isBlank c) (hcore : core ≠ [])
    (hfirst : ∀ c, core.head? = some c → isBlank c = false)
    (hlast : ∀ c, core.getLast? = some c → isBlank c = false) :
    trim (String.ofList (visible ++ core ++ back)) = String.ofList core := by
  have hstart : trimStart (visible ++ (core ++ back)) = core ++ back := by
    refine trimStart_append hfront ?_
    intro c hc
    rw [List.head?_append_of_ne_nil _ hcore] at hc
    exact hfirst c hc
  have hend : trimEnd (core ++ back) = core := by
    have hreverse : trimStart (back.reverse ++ core.reverse) = core.reverse := by
      refine trimStart_append (by simpa using hback) ?_
      simpa using hlast
    rw [trimEnd, List.reverse_append]
    rw [trimStart] at hreverse
    rw [hreverse, List.reverse_reverse]
  rw [trim, String.toList_ofList, List.append_assoc, hstart, hend]

end Text

/-! ### The header that is written -/

namespace Frame

theorem isDigit_of_mem_digits {n : Nat} {c : Char} (h : c ∈ Nat.toDigits 10 n) : c.isDigit :=
  Nat.isDigit_of_mem_toDigits (by decide) (by decide) h

/-- The decimal digits of a length that fits a word are read as that length. -/
theorem wordOf?_digits {n : Nat} (h : n < 0x10000000000000000) :
    Text.wordOf? (String.ofList (Nat.toDigits 10 n)) = some n := by
  have hall : (Nat.toDigits 10 n).all Char.isDigit := by
    rw [List.all_eq_true]
    exact fun c hc => isDigit_of_mem_digits hc
  have hvalue : (Nat.toDigits 10 n).foldl (fun n c => 10 * n + (c.toNat - '0'.toNat)) 0 = n :=
    Nat.ofDigitChars_ten_toDigits
  have hdigits : Text.digits? (Nat.toDigits 10 n) = some n := by
    rw [Text.digits?, hall, hvalue]
    simp
  unfold Text.wordOf? Text.natBelow?
  rw [String.toList_ofList]
  split
  -- A digit is no sign.
  · rename_i rest htext
    rw [htext] at hall
    simp at hall
  · simp only [hdigits, h, if_true]

theorem isBlank_of_isDigit {c : Char} (h : c.isDigit) : Text.isBlank c = false := by
  rw [Char.isDigit, Bool.and_eq_true, decide_eq_true_eq, decide_eq_true_eq] at h
  have hlow : 48 ≤ c.toNat := h.1
  have hhigh : c.toNat ≤ 57 := h.2
  simp only [Text.isBlank, Bool.or_eq_false_iff, Bool.and_eq_false_iff, decide_eq_false_iff_not,
    beq_eq_false_iff_ne]
  omega

/-- The name of the header that announces a length, as it is written. -/
def lengthName : List Char := ['C', 'o', 'n', 't', 'e', 'n', 't', '-', 'L', 'e', 'n', 'g', 't', 'h']

/-- The characters of the line that announces a length, without its end. -/
def lengthLine (size : Nat) : List Char := lengthName ++ ':' :: ' ' :: Nat.toDigits 10 size

theorem ofList_lengthName : String.ofList lengthName = "Content-Length" := rfl

theorem header_eq (size : Nat) :
    header size =
      String.ofList (lengthLine size ++ ['\r', '\n']) ++ String.ofList ['\r', '\n'] := by
  have hname : "Content-Length: " = String.ofList (lengthName ++ [':', ' ']) := rfl
  have hend : "\r\n\r\n" = String.ofList (['\r', '\n'] ++ ['\r', '\n']) := rfl
  have hline : lengthLine size = (lengthName ++ [':', ' ']) ++ Nat.toDigits 10 size := by
    rw [lengthLine, List.append_assoc]
    rfl
  show "Content-Length: " ++ String.ofList (Nat.toDigits 10 size) ++ "\r\n\r\n" = _
  rw [hname, hend, hline]
  simp only [String.ofList_append, String.append_assoc]

/-- The line that announces a length is plain text without a line feed. -/
theorem plain_lengthLine (size : Nat) :
    ∀ c ∈ lengthLine size ++ ['\r'], c.val ≤ 0x7F ∧ c ≠ '\n' := by
  have hname : ∀ c ∈ lengthName ++ [':', ' ', '\r'], c.val ≤ 0x7F ∧ c ≠ '\n' := by
    simp [lengthName]
  intro c hc
  by_cases hdigits : c ∈ Nat.toDigits 10 size
  · have hdigit := isDigit_of_mem_digits hdigits
    rw [Char.isDigit, Bool.and_eq_true, decide_eq_true_eq, decide_eq_true_eq] at hdigit
    refine ⟨UInt32.le_trans hdigit.2 (by decide), ?_⟩
    rintro rfl
    exact absurd hdigit.1 (by decide)
  · refine hname c ?_
    simpa [lengthLine, hdigits] using hc

/-- Plain text that ends in its only line feed is a line. -/
theorem isLine_of_plain (cs : List Char) (h : ∀ c ∈ cs, c.val ≤ 0x7F ∧ c ≠ '\n') :
    IsLine (Text.bytes (String.ofList (cs ++ ['\n']))) := by
  refine ⟨Text.bytes (String.ofList cs), ?_, ?_⟩
  · rw [String.ofList_append, Text.bytes_append]
    rfl
  · exact Text.lineFeed_not_mem_bytes (fun c hc => (h c hc).1) fun hc => (h _ hc).2 rfl

theorem tells_emptyLine :
    HeaderLine.Tells (Text.bytes (String.ofList ['\r', '\n'])) .blank := by
  refine ⟨isLine_of_plain ['\r'] (by simp), _, Text.ofBytes?_bytes _, ?_⟩
  have htrim : Text.trim (String.ofList ['\r', '\n']) = "" := by decide
  rw [htrim]
  exact .blank

theorem tells_lengthLine {size : Nat} (h : size < 0x10000000000000000) :
    HeaderLine.Tells (Text.bytes (String.ofList (lengthLine size ++ ['\r', '\n'])))
      (.contentLength size) := by
  have hblank : ∀ c ∈ Nat.toDigits 10 size, Text.isBlank c = false :=
    fun c hc => isBlank_of_isDigit (isDigit_of_mem_digits hc)
  have hlast : ∀ c, (lengthLine size).getLast? = some c → Text.isBlank c = false := by
    intro c hc
    have hend : lengthLine size = (lengthName ++ [':', ' ']) ++ Nat.toDigits 10 size := by
      simp [lengthLine]
    rw [hend, List.getLast?_append_of_ne_nil _ Nat.toDigits_ne_nil] at hc
    exact hblank c (List.mem_of_getLast? hc)
  refine ⟨?_, _, Text.ofBytes?_bytes _, ?_⟩
  · have hline := isLine_of_plain _ (plain_lengthLine size)
    rwa [List.append_assoc] at hline
  · -- The line end is a blank, and so is what stands in front of the digits.
    have htrim : Text.trim (String.ofList (lengthLine size ++ ['\r', '\n'])) =
        "Content-Length" ++ ":" ++ (" " ++ String.ofList (Nat.toDigits 10 size)) := by
      have hbetween := Text.trim_between [] (lengthLine size) ['\r', '\n'] (by simp)
        (by simp [Text.isBlank]) (by simp [lengthLine]) (by intro c hc; cases hc; decide) hlast
      rw [List.nil_append] at hbetween
      have hcolon : ":" = String.ofList [':'] := rfl
      have hspace : " " = String.ofList [' '] := rfl
      rw [hbetween, ← ofList_lengthName, hcolon, hspace, String.append_assoc]
      simp only [← String.ofList_append]
      rfl
    have hvalue : Text.trim (" " ++ String.ofList (Nat.toDigits 10 size)) =
        String.ofList (Nat.toDigits 10 size) := by
      have hbetween := Text.trim_between [' '] (Nat.toDigits 10 size) []
        (by simp [Text.isBlank]) (by simp) Nat.toDigits_ne_nil
        (fun c hc => hblank c (List.mem_of_head? hc))
        (fun c hc => hblank c (List.mem_of_getLast? hc))
      rw [List.append_nil, String.ofList_append] at hbetween
      exact hbetween
    rw [htrim]
    refine .contentLength (by decide) (by decide) ?_
    rw [hvalue]
    exact wordOf?_digits h

/-- The lines of the header that is written. -/
def headerLines (size : Nat) : List (List UInt8) :=
  [Text.bytes (String.ofList (lengthLine size ++ ['\r', '\n'])),
    Text.bytes (String.ofList ['\r', '\n'])]

theorem flatten_headerLines (size : Nat) :
    (headerLines size).flatten = Text.bytes (header size) := by
  rw [header_eq, Text.bytes_append]
  simp [headerLines]

theorem isHeader_headerLines {size : Nat} (h : size < 0x10000000000000000) :
    IsHeader (headerLines size) size := by
  refine ⟨[.contentLength size, .blank],
    .cons (tells_lengthLine h) (.cons tells_emptyLine .nil), [], [], size, rfl, ?_⟩
  simp [HeaderLine.size?]

/-- The header that is written announces its size. -/
theorem begins_header (body : List UInt8) (h : body.length < 0x10000000000000000)
    (rest : List UInt8) :
    Begins (Text.bytes (header body.length) ++ body ++ rest) body rest :=
  ⟨headerLines body.length, isHeader_headerLines h, by rw [flatten_headerLines]⟩

end Frame

/-! ### The mark of a message -/

namespace Json

variable {name : String} {value : Json} {members : List (String × Json)}

theorem mem_of_mem_insertMember {member : String × Json}
    (h : member ∈ insertMember name value members) : member = (name, value) ∨ member ∈ members := by
  induction members with
  | nil => simpa [insertMember] using h
  | cons other rest ih =>
      obtain ⟨other, kept⟩ := other
      rw [insertMember] at h
      split at h
      · simpa using h
      · split at h <;> rw [List.mem_cons] at h ⊢
        · exact h.imp_right .inr
        · rcases h with h | h
          · exact .inr (.inl h)
          · exact (ih h).imp_right .inr

theorem increasingNames_insertMember (h : IncreasingNames members) :
    IncreasingNames (insertMember name value members) := by
  induction members with
  | nil => simp [insertMember, IncreasingNames]
  | cons other rest ih =>
      obtain ⟨other, kept⟩ := other
      have hsplit := List.pairwise_cons.mp h
      rw [insertMember]
      split
      · rename_i hless
        refine List.pairwise_cons.mpr ⟨?_, h⟩
        intro later hlater
        rw [List.map_cons, List.mem_cons] at hlater
        rcases hlater with rfl | hlater
        · exact hless
        · exact lt_trans hless (hsplit.1 later hlater)
      · split
        · rename_i hsame
          rw [hsame]
          exact h
        · refine List.pairwise_cons.mpr ⟨?_, ih hsplit.2⟩
          intro later hlater
          obtain ⟨member, hmember, rfl⟩ := List.mem_map.mp hlater
          rcases mem_of_mem_insertMember hmember with rfl | hmember
          · show other < name
            exact lt_of_le_of_ne (not_lt.mp ‹_›) fun heq => ‹¬ name = other› heq.symm
          · exact hsplit.1 member.1 (List.mem_map_of_mem hmember)

theorem lookup_insertMember (other : String) :
    lookup other (insertMember name value members) =
      if other = name then some value else lookup other members := by
  induction members with
  | nil => rfl
  | cons member rest ih =>
      obtain ⟨found, kept⟩ := member
      rw [insertMember]
      split
      · rfl
      · split
        · rename_i hsame
          subst hsame
          by_cases heq : other = name <;> simp [lookup, heq]
        · rename_i hne
          by_cases heq : other = found
          · subst heq
            simp [lookup, Ne.symm hne]
          · simp [lookup, heq, ih]

theorem sortedMembers_iff : SortedMembers members ↔ ∀ member ∈ members, member.2.Sorted := by
  induction members with
  | nil => simp [SortedMembers]
  | cons member rest ih => simp [SortedMembers, ih]

theorem depthMembers_le_iff {limit : Nat} :
    depthMembers members ≤ limit ↔ ∀ member ∈ members, member.2.depth ≤ limit := by
  induction members with
  | nil => simp [depthMembers]
  | cons member rest ih => simp [depthMembers, ih]

theorem areReadBack_memberNumbers_iff :
    AreReadBack (memberNumbers members) ↔ ∀ member ∈ members, AreReadBack member.2.numbers := by
  induction members with
  | nil => simp [memberNumbers, AreReadBack]
  | cons member rest ih =>
      rw [List.forall_mem_cons, ← ih, memberNumbers]
      refine ⟨areReadBack_append, ?_⟩
      rintro ⟨hmember, hrest⟩ n hn
      rcases List.mem_append.mp hn with hn | hn
      · exact hmember n hn
      · exact hrest n hn

end Json

namespace Frame

/-- A value that can be written as a message and read back: its objects list their names in order,
its numbers are integers of a word, it is not nested deeper than a message may be, and its body
fits the memory. -/
structure IsWritable (value : Json) : Prop where
  sorted : value.Sorted
  integers : Json.AreIntegers value.numbers
  depth : value.depth ≤ Json.depthLimit
  fits : (body value).length < sizeLimit

/-- A value that is read back from its text where it may be nested as deep as a limit: its objects
list their names in order, and each of its numbers reads back. -/
structure IsLegible (limit : Nat) (value : Json) : Prop where
  sorted : value.Sorted
  numbers : Json.AreReadBack value.numbers
  depth : value.depth ≤ limit

theorem IsWritable.isLegible {value : Json} (h : IsWritable value) :
    IsLegible Json.depthLimit value :=
  ⟨h.sorted, Json.areReadBack_of_integers h.integers, h.depth⟩

/-- `after` is `before` with the mark of a message: an object has the version under `jsonrpc` and
every other member as it was, its names still in order; any other value is as it was. -/
def Marks (before after : Json) : Prop :=
  match before, after with
  | .obj members, .obj marked =>
      Json.IncreasingNames marked ∧ Json.lookup "jsonrpc" marked = some (.str "2.0") ∧
        ∀ name, name ≠ "jsonrpc" → Json.lookup name marked = Json.lookup name members
  | .obj _, _ => False
  | value, other => other = value

theorem marks_marked {value : Json} (h : value.Sorted) : Marks value (marked value) := by
  cases value with
  | obj members =>
      refine ⟨Json.increasingNames_insertMember h.1, ?_, ?_⟩
      · rw [Json.lookup_insertMember, if_pos rfl]
      · intro name hname
        rw [Json.lookup_insertMember, if_neg hname]
  | _ => rfl

/-- The mark of a message does not change whether a value can be read back. -/
theorem parse?_marked {value : Json} (h : IsLegible Json.depthLimit value) :
    Json.parse? (marked value).compact = some (marked value) := by
  obtain ⟨hsorted, hnumbers, hdepth⟩ := h
  cases value with
  | obj members =>
      rw [Json.numbers, Json.areReadBack_memberNumbers_iff] at hnumbers
      have hmembers := Json.sortedMembers_iff.mp hsorted.2
      rw [Json.depth] at hdepth
      have hdeep := Json.depthMembers_le_iff.mp (Nat.le_sub_one_of_lt hdepth)
      -- Whatever holds of the value of every member also holds of the version.
      apply Json.parse?_compact
      · refine ⟨Json.increasingNames_insertMember hsorted.1, Json.sortedMembers_iff.mpr ?_⟩
        intro member hmember
        rcases Json.mem_of_mem_insertMember hmember with rfl | hmember
        · trivial
        · exact hmembers member hmember
      · refine Json.areReadBack_memberNumbers_iff.mpr ?_
        intro member hmember
        rcases Json.mem_of_mem_insertMember hmember with rfl | hmember
        · simp [Json.numbers, Json.AreReadBack]
        · exact hnumbers member hmember
      · rw [marked, Json.depth]
        refine Nat.succ_le_of_lt (Nat.lt_of_le_pred (by decide) (Json.depthMembers_le_iff.mpr ?_))
        intro member hmember
        rcases Json.mem_of_mem_insertMember hmember with rfl | hmember
        · simp [Json.depth]
        · exact hdeep member hmember
  | _ => exact Json.parse?_compact hsorted hnumbers hdepth

/-! ### Reading what was written -/

/-- One frame is taken off the stream. -/
theorem read_encode {value : Json} (hfits : (body value).length < sizeLimit) (ended : Bool)
    (rest : List UInt8) : read ended (encode value ++ rest) = taken (body value) rest :=
  read_of_fits (begins_header (body value) (Nat.lt_trans hfits (by decide)) rest) hfits ended

/-- The body that is written of a legible value writes that value, marked as a message. -/
theorem decodeBody?_body {value : Json} (h : IsLegible Json.depthLimit value) :
    decodeBody? (body value) = some (marked value) := by
  rw [decodeBody?, body, Text.ofBytes?_bytes]
  exact parse?_marked h

/-- What reading gives, message by message: the messages in order, each with what was written
behind it, and then the end. -/
def readings : List Json → List Reading
  | [] => [.finished]
  | value :: rest => .message (marked value) (rest.flatMap encode) :: readings rest

/-- What reading gives, frame by frame, whether or not their values are read back. -/
def takings : List Json → List Reading
  | [] => [.finished]
  | value :: rest => taken (body value) (rest.flatMap encode) :: takings rest

theorem takings_of_legible {values : List Json}
    (h : ∀ value ∈ values, IsLegible Json.depthLimit value) : takings values = readings values := by
  induction values with
  | nil => rfl
  | cons value rest ih =>
      rw [List.forall_mem_cons] at h
      rw [takings, readings, ih h.2, taken, decodeBody?_body h.1]

theorem length_encode_pos (value : Json) : 0 < (encode value).length := by
  have hheader : Text.bytes (header (body value).length) ≠ [] := by
    intro hempty
    have hlengths := congrArg List.length hempty
    rw [header_eq, Text.bytes_append] at hlengths
    simp [Text.bytes] at hlengths
  rw [encode, List.length_append]
  exact Nat.add_pos_left (List.length_pos_iff.mpr hheader) _

theorem readUpTo_frames {values : List Json}
    (hfits : ∀ value ∈ values, (body value).length < sizeLimit) {fuel : Nat}
    (hfuel : (values.flatMap encode).length < fuel) :
    readUpTo fuel (values.flatMap encode) = takings values := by
  induction values generalizing fuel with
  | nil =>
      obtain ⟨fuel, rfl⟩ := Nat.exists_eq_add_of_lt hfuel
      have hend : read true [] = .finished := by
        rw [read, readFrom]
        rfl
      simp [readUpTo, takings, hend, Reading.rest?]
  | cons value rest ih =>
      rw [List.forall_mem_cons] at hfits
      rw [List.flatMap_cons, List.length_append] at hfuel
      -- A frame takes at least a byte, so the fuel that is left suffices for the others.
      have hpos := length_encode_pos value
      cases fuel with
      | zero => omega
      | succ fuel =>
          have hrest : readUpTo fuel (rest.flatMap encode) = takings rest := ih hfits.2 (by omega)
          simp only [readUpTo, List.flatMap_cons, read_encode hfits.1, rest?_taken, hrest, takings]

theorem readUpTo_flatMap {values : List Json} (h : ∀ value ∈ values, IsWritable value) {fuel : Nat}
    (hfuel : (values.flatMap encode).length < fuel) :
    readUpTo fuel (values.flatMap encode) = readings values := by
  rw [readUpTo_frames (fun value hvalue => (h value hvalue).fits) hfuel,
    takings_of_legible fun value hvalue => (h value hvalue).isLegible]

/-- **Messages written one behind the other are read back.**  Values with integers only, whatever
their strings hold, are read from the bytes that were written for them: the same values in the same
order, every object marked as a message, each reading takes exactly the bytes of its message, and
after the last one the stream has ended. -/
theorem written_messages_read_back (values : List Json)
    (h : ∀ value ∈ values, IsWritable value) :
    readAll (values.flatMap encode) = readings values ∧
      ∀ value ∈ values, Marks value (marked value) :=
  ⟨readUpTo_flatMap h (Nat.lt_succ_self _),
    fun value hvalue => marks_marked (h value hvalue).sorted⟩

/-- The theorem at a message whose text has a line feed, a quote and a character of two bytes. -/
theorem two_messages_read_back :
    (∀ value ∈ [.obj [("id", .ofInt (-1)), ("text", .str "é\n\"")], .arr [.null]],
      IsWritable value) ∧
    readAll ([.obj [("id", .ofInt (-1)), ("text", .str "é\n\"")], .arr [.null]].flatMap encode) =
      readings [.obj [("id", .ofInt (-1)), ("text", .str "é\n\"")], .arr [.null]] := by
  have hfirst : IsWritable (.obj [("id", .ofInt (-1)), ("text", .str "é\n\"")]) := by
    refine ⟨⟨?_, ?_⟩, ?_, by decide, by decide⟩
    · simpa [Json.IncreasingNames] using (by decide : "id" < "text")
    · exact ⟨trivial, trivial, trivial⟩
    · intro n hn
      refine ⟨-1, by simpa [Json.numbers, Json.memberNumbers, Json.ofInt] using hn, ?_⟩
      simp [Number.FitsWord]
  have hsecond : IsWritable (.arr [.null]) :=
    ⟨⟨trivial, trivial⟩, by simp [Json.AreIntegers, Json.numbers, Json.itemNumbers], by decide,
      by decide⟩
  have hwritable : ∀ value ∈ [.obj [("id", .ofInt (-1)), ("text", .str "é\n\"")], .arr [.null]],
      IsWritable value := by
    rw [List.forall_mem_cons, List.forall_mem_singleton]
    exact ⟨hfirst, hsecond⟩
  exact ⟨hwritable, (written_messages_read_back _ hwritable).1⟩

end Frame
end LanguageClient
