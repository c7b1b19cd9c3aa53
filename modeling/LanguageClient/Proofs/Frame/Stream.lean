import LanguageClient.Proofs.Frame.Grammar

/-!
# Frames that come in parts

The bytes of a stream arrive in parts that need not end where a frame ends.  As long as more may
come, reading waits for the rest of a frame, and takes it off when it is there, whatever its body
holds.

* `Frame.Packet` — a header and a body, by their bytes.
* `Frame.read_front` — a frame that is not there to its end is waited for.
* **`Frame.read_packets`** — what is read at the front of packets that have arrived in part.
-/

namespace LanguageClient

theorem splitLine?_of_not_mem {bs : List UInt8} (h : 10 ∉ bs) : splitLine? bs = none := by
  induction bs with
  | nil => rfl
  | cons b bs ih =>
      rw [List.mem_cons, not_or] at h
      have hb : b ≠ 10 := fun heq => h.1 heq.symm
      simp [splitLine?, hb, ih h.2]

/-- What begins a line and more ends inside the line or has all of it. -/
theorem front_of_line {line visible more : List UInt8} (hline : IsLine line)
    (h : visible <+: line ++ more) :
    10 ∉ visible ∨ ∃ rest, visible = line ++ rest ∧ rest <+: more := by
  obtain ⟨text, rfl, htext⟩ := hline
  rcases List.prefix_or_prefix_of_prefix h ((List.prefix_append text [10]).trans
    (List.prefix_append _ more)) with hinside | ⟨rest, rfl⟩
  · exact .inl fun hmem => htext (hinside.subset hmem)
  · rw [List.append_assoc, List.prefix_append_right_inj] at h
    cases rest with
    | nil => exact .inl (by rwa [List.append_nil])
    | cons b rest =>
        rw [List.singleton_append, List.cons_prefix_cons] at h
        obtain ⟨rfl, hrest⟩ := h
        exact .inr ⟨rest, by simp, hrest⟩

namespace Frame

/-! ### Packets -/

/-- A header, line by line, and a body. -/
structure Packet where
  lines : List (List UInt8)
  body : List UInt8

namespace Packet

/-- The bytes of a packet. -/
def bytes (p : Packet) : List UInt8 := p.lines.flatten ++ p.body

/-- The header announces the body, and the body fits the memory.  What the body holds does not
matter. -/
structure IsWellFramed (p : Packet) : Prop where
  header : IsHeader p.lines p.body.length
  fits : p.body.length < sizeLimit

/-- The value that the body writes, if it writes one. -/
def value? (p : Packet) : Option Json := decodeBody? p.body

end Packet

variable {p : Packet} {packets : List Packet} {input : List UInt8}

theorem read_packet (h : p.IsWellFramed) (ended : Bool) (rest : List UInt8) :
    read ended (p.bytes ++ rest) = taken p.body rest :=
  read_of_fits ⟨p.lines, h.header, rfl⟩ h.fits ended

/-! ### Packets in parts -/

theorem readFrom_of_no_line {visible : List UInt8} (h : 10 ∉ visible) (size : Option Nat) :
    readFrom false size visible = .incomplete := by
  rw [readFrom]
  split
  · rfl
  · rename_i hline
    rw [splitLine?_of_not_mem h] at hline
    cases hline

theorem bytes_ne_nil (h : p.IsWellFramed) : p.bytes ≠ [] := by
  intro hnil
  have hwhole := read_packet h false []
  have hwait : read false ([] ++ []) = .incomplete := readFrom_of_no_line (by simp) none
  rw [hnil, hwait] at hwhole
  have hrest := congrArg Reading.rest? hwhole
  rw [rest?_taken] at hrest
  cases hrest

/-- Reading waits for the rest of the first line, or has the line and goes on behind it. -/
theorem readFrom_or_behind {line visible : List UInt8} {lines : List (List UInt8)}
    {body : List UInt8} (hline : IsLine line) (size : Option Nat)
    (hfront : visible <+: (line :: lines).flatten ++ body)
    (hshort : visible ≠ (line :: lines).flatten ++ body) :
    readFrom false size visible = .incomplete ∨ ∃ rest, visible = line ++ rest ∧
      rest <+: lines.flatten ++ body ∧ rest ≠ lines.flatten ++ body := by
  rw [List.flatten_cons, List.append_assoc] at hfront hshort
  rcases front_of_line hline hfront with hnone | ⟨rest, rfl, hprefix⟩
  · exact .inl (readFrom_of_no_line hnone size)
  · exact .inr ⟨rest, rfl, hprefix, fun heq => hshort (by rw [heq])⟩

/-- The induction is on the header as it is read: what is there ends inside the next line, or has it
and goes on. -/
theorem readFrom_front {lines : List (List UInt8)} {said : List HeaderLine} {old : Option Nat}
    {body visible : List UInt8} (hlines : List.Forall₂ HeaderLine.Tells lines said)
    (hends : Ends old said body.length) (hfits : body.length < sizeLimit)
    (hfront : visible <+: lines.flatten ++ body) (hshort : visible ≠ lines.flatten ++ body) :
    readFrom false old visible = .incomplete := by
  generalize hsize : body.length = size at hends hfits
  induction hends generalizing lines visible with
  | blank size =>
      cases hlines with
      | cons hline hrest =>
          cases hrest
          rcases readFrom_or_behind hline.isLine (some size) hfront hshort with
            hwait | ⟨rest, rfl, hprefix, hne⟩
          · exact hwait
          · rw [List.flatten_nil, List.nil_append] at hprefix hne
            have hlength : rest.length < size := by
              have hle := hprefix.length_le
              have hsame := mt hprefix.eq_of_length hne
              omega
            rw [readFrom_line hline]
            simp [readBody, Nat.not_le.mpr hfits, hlength]
  | skip h ih | contentLength h ih | other h ih =>
      cases hlines with
      | cons hline hrest =>
          rcases readFrom_or_behind hline.isLine _ hfront hshort with
            hwait | ⟨rest, rfl, hprefix, hne⟩
          · exact hwait
          · rw [readFrom_line hline]
            exact ih hrest hprefix hne hsize hfits

/-- A frame that is not there to its end is waited for. -/
theorem read_front (h : p.IsWellFramed) {visible : List UInt8} (hfront : visible <+: p.bytes)
    (hshort : visible ≠ p.bytes) : read false visible = .incomplete := by
  obtain ⟨said, hlines, hannounces⟩ := h.header
  exact readFrom_front hlines (ends_none_iff.mpr hannounces) h.fits hfront hshort

/-- **What is read at the front of packets** of which some bytes have arrived: the first packet when
all of it is there, whatever its body holds, and nothing before that. -/
theorem read_packets (h : ∀ p ∈ packets, p.IsWellFramed)
    (hinput : input <+: packets.flatMap Packet.bytes) :
    (read false input = .incomplete ∧ ∀ p rest, packets = p :: rest → ¬ p.bytes <+: input) ∨
      ∃ p rest left, packets = p :: rest ∧ input = p.bytes ++ left ∧
        left <+: rest.flatMap Packet.bytes ∧ read false input = taken p.body left := by
  cases packets with
  | nil =>
      obtain rfl : input = [] := List.prefix_nil.mp hinput
      exact .inl ⟨readFrom_of_no_line (by simp) none, by simp⟩
  | cons p rest =>
      rw [List.forall_mem_cons] at h
      rw [List.flatMap_cons] at hinput
      by_cases hwhole : p.bytes <+: input
      · obtain ⟨left, rfl⟩ := hwhole
        exact .inr ⟨p, rest, left, rfl, rfl, (List.prefix_append_right_inj _).mp hinput,
          read_packet h.1 false left⟩
      · have hfront : input <+: p.bytes :=
          (List.prefix_or_prefix_of_prefix hinput (List.prefix_append _ _)).resolve_right hwhole
        refine .inl ⟨read_front h.1 hfront fun heq => hwhole (heq ▸ List.prefix_rfl), ?_⟩
        intro q others heq
        cases heq
        exact hwhole

theorem packet_of_message (h : ∀ p ∈ packets, p.IsWellFramed)
    (hinput : input <+: packets.flatMap Packet.bytes) {value : Json} {left : List UInt8}
    (hread : read false input = .message value left) :
    ∃ p rest, packets = p :: rest ∧ input = p.bytes ++ left ∧
      left <+: rest.flatMap Packet.bytes ∧ p.value? = some value := by
  rcases read_packets h hinput with ⟨hwait, -⟩ | ⟨p, rest, left', hpackets, hfront, hleft, htaken⟩
  · rw [hwait] at hread
    cases hread
  · rw [htaken, taken] at hread
    split at hread
    · rename_i found hfound
      cases hread
      exact ⟨p, rest, hpackets, hfront, hleft, hfound⟩
    · cases hread

theorem packet_of_invalid (h : ∀ p ∈ packets, p.IsWellFramed)
    (hinput : input <+: packets.flatMap Packet.bytes) {left : List UInt8}
    (hread : read false input = .invalid left) :
    ∃ p rest, packets = p :: rest ∧ input = p.bytes ++ left ∧
      left <+: rest.flatMap Packet.bytes ∧ p.value? = none := by
  rcases read_packets h hinput with ⟨hwait, -⟩ | ⟨p, rest, left', hpackets, hfront, hleft, htaken⟩
  · rw [hwait] at hread
    cases hread
  · rw [htaken, taken] at hread
    split at hread
    · cases hread
    · rename_i hnone
      cases hread
      exact ⟨p, rest, hpackets, hfront, hleft, hnone⟩

end Frame
end LanguageClient
