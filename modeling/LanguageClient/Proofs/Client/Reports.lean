import LanguageClient.Client.Request
import LanguageClient.Proofs.Json.Pretty

/-!
# Reports of the doctor

A report comes as a value or as a text that writes one, and is shown alike.  What is shown can be
sent again: as the text of a report it is shown as it is.

* `Doctor.IsReadable`, `Doctor.IsReport` — the values of reports, and the reports.
* `Doctor.report_of_parse?`, `Doctor.report_of_not_text` — what is shown of a text and of a value.
* **`Doctor.reports_are_shown_alike`** — a value and its text are shown alike, and what is shown of a
  report is shown as it is.
-/

namespace LanguageClient
namespace Doctor

/-- A value that is read back from what is written of it: the names of its objects are in order, its
numbers are integers of a word, and it is nested no deeper than a message may be. -/
structure IsReadable (value : Json) : Prop where
  sorted : value.Sorted
  integers : Json.AreIntegers value.numbers
  depth : value.depth ≤ Json.depthLimit

/-- What a server may send as a report. -/
inductive IsReport : Json → Prop
  /-- A value that is no text. -/
  | value {value : Json} (hvalue : IsReadable value) (htext : ∀ text, value ≠ .str text) :
      IsReport value
  /-- A text that writes a value of any kind, in whatever way. -/
  | written {text : String} {value : Json} (hparse : Json.parse? text = some value)
      (hnumbers : Json.AreIntegers value.numbers) : IsReport (.str text)
  /-- A text that writes no value. -/
  | plain {text : String} (hparse : Json.parse? text = none) : IsReport (.str text)

theorem IsReadable.parse?_compact {value : Json} (h : IsReadable value) :
    Json.parse? value.compact = some value :=
  Json.parse?_compact h.sorted (Json.areReadBack_of_integers h.integers) h.depth

theorem IsReadable.parse?_pretty {value : Json} (h : IsReadable value) :
    Json.parse? value.pretty = some value :=
  Json.parse?_pretty h.sorted (Json.areReadBack_of_integers h.integers) h.depth

theorem isReadable_of_parse? {text : String} {value : Json} (h : Json.parse? text = some value)
    (hnumbers : Json.AreIntegers value.numbers) : IsReadable value :=
  have hfits := Json.fitsDepth_of_parse? h
  ⟨hfits.sorted, hnumbers, hfits.depth⟩

/-- A text that writes a value is shown as that value is printed. -/
theorem report_of_parse? {text : String} {value : Json} (h : Json.parse? text = some value) :
    report (.str text) = value.pretty := by
  simp only [report, h]

theorem report_of_plain {text : String} (h : Json.parse? text = none) :
    report (.str text) = text := by
  simp only [report, h]

theorem report_of_not_text {value : Json} (h : ∀ text, value ≠ .str text) :
    report value = value.pretty := by
  cases value with
  | str text => exact absurd rfl (h text)
  | _ => rfl

/-- What is shown of a readable value is shown as it is. -/
theorem report_pretty {value : Json} (h : IsReadable value) :
    report (.str value.pretty) = value.pretty := report_of_parse? h.parse?_pretty

/-- **Reports are shown alike, however they are sent.**  A value that is no text is shown as the text
that writes it, and so is the reply that brings it.  What is shown of a report, be it a value, a text
that writes one or any other text, is shown as it is when it is sent as a report. -/
theorem reports_are_shown_alike :
    (∀ value : Json, IsReadable value → (∀ text, value ≠ .str text) →
      report value = report (.str value.compact) ∧
        ∀ (c : Client) (call : Nat), c.useReply call (.ok value) .doctor =
          c.useReply call (.ok (.str value.compact)) .doctor) ∧
      ∀ answer : Json, IsReport answer → report (.str (report answer)) = report answer := by
  constructor
  · intro value hvalue htext
    have hsame : report value = report (.str value.compact) := by
      rw [report_of_not_text htext, report_of_parse? hvalue.parse?_compact]
    refine ⟨hsame, fun c call => ?_⟩
    simp only [Client.useReply, Client.concludeDoctor, hsame]
  · intro answer hanswer
    cases hanswer with
    | value hvalue htext =>
        rw [report_of_not_text htext]
        exact report_pretty hvalue
    | written hparse hnumbers =>
        rw [report_of_parse? hparse]
        exact report_pretty (isReadable_of_parse? hparse hnumbers)
    | plain hparse =>
        rw [report_of_plain hparse]
        exact report_of_plain hparse

/-- A report with a number, a text with a quote and a nested object. -/
def sampleReport : Json :=
  .obj [("name", .str "\"VLS\"\n"), ("parts", .arr [.ofInt (-1), .obj []])]

/-- A text that writes a text that writes that report. -/
def nestedReport : Json := .str (Json.str sampleReport.compact).compact

/-- A value is shown as its text; and what is shown of a value, of a text inside a text and of a text
that writes nothing is shown as it is. -/
theorem sample_report_is_shown_alike :
    report sampleReport = report (.str sampleReport.compact) ∧
      report (.str (report sampleReport)) = report sampleReport ∧
      report (.str (report nestedReport)) = report nestedReport ∧
      report (.str (report (.str "no json"))) = report (.str "no json") := by
  obtain ⟨halike, hagain⟩ := reports_are_shown_alike
  have hsample : IsReadable sampleReport := by
    have hnames : Json.IncreasingNames
        [("name", .str "\"VLS\"\n"), ("parts", .arr [.ofInt (-1), .obj []])] := by
      simp only [Json.IncreasingNames, List.map_cons, List.map_nil]
      decide
    refine ⟨⟨hnames, trivial, ⟨trivial, ⟨List.Pairwise.nil, trivial⟩, trivial⟩, trivial⟩, ?_,
      by decide⟩
    intro n hn
    obtain rfl : n = .int (-1) := by simpa [sampleReport, Json.numbers, Json.memberNumbers,
      Json.itemNumbers, Json.ofInt] using hn
    exact ⟨-1, rfl, by simp [Number.FitsWord]⟩
  have hno : ∀ text, sampleReport ≠ .str text := by simp [sampleReport]
  have htext : IsReadable (.str sampleReport.compact) :=
    ⟨trivial, by simp [Json.AreIntegers, Json.numbers], Nat.zero_le _⟩
  exact ⟨(halike sampleReport hsample hno).1, hagain _ (.value hsample hno),
    hagain _ (.written htext.parse?_compact htext.integers), hagain _ (.plain (by decide +kernel))⟩

end Doctor
end LanguageClient
