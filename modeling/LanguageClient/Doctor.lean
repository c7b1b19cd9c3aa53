import LanguageClient.Json.Parser
import LanguageClient.Json.Printer

/-!
# Reports of the doctor

A server answers a request for a report with a value, or with a text; a text that writes a value
stands for it.

* `Doctor.report` — the text in which a report is shown.
-/

namespace LanguageClient
namespace Doctor

/-- The text of a report: a value with one item or member a line; a text that writes no value as it
is. -/
def report (answer : Json) : String :=
  match answer with
  | .str text => match Json.parse? text with
      | some value => value.pretty
      | none => text
  | value => value.pretty

end Doctor
end LanguageClient
