import LanguageClient.Error
import LanguageClient.Text.Blank
import LanguageClient.Text.Utf8

/-!
# Header lines

A message is preceded by lines of the form `name: value`. One of them, `Content-Length`, announces
the size of the body; names are compared without regard to case, and blanks around a line, a name
and a value are ignored.

* `splitLine?` — the bytes of the first line of a stream.
* `HeaderLine.ofBytes` — what a line says, or why it is no header line.
-/

namespace LanguageClient

/-- The bytes up to and including the first line feed, and the bytes after it; none when the
stream holds no line feed yet. -/
def splitLine? : List UInt8 → Option (List UInt8 × List UInt8)
  | [] => none
  | b :: rest =>
      if b = 10 then some ([b], rest)
      else (splitLine? rest).map fun found => (b :: found.1, found.2)

/-- A line and what follows it are the whole stream. -/
theorem splitLine?_append {bs line rest : List UInt8} (h : splitLine? bs = some (line, rest)) :
    line ++ rest = bs := by
  induction bs generalizing line rest with
  | nil => simp [splitLine?] at h
  | cons b bs ih =>
    unfold splitLine? at h
    split at h
    · cases h
      rfl
    · obtain ⟨⟨line', rest'⟩, hfound, heq⟩ := Option.map_eq_some_iff.1 h
      cases heq
      simp [ih hfound]

/-- A line takes at least one byte. -/
theorem length_lt_of_splitLine? {bs line rest : List UInt8}
    (h : splitLine? bs = some (line, rest)) : rest.length < bs.length := by
  induction bs generalizing line rest with
  | nil => simp [splitLine?] at h
  | cons b bs ih =>
    unfold splitLine? at h
    split at h
    · cases h
      simp
    · obtain ⟨⟨line', rest'⟩, hfound, heq⟩ := Option.map_eq_some_iff.1 h
      cases heq
      exact Nat.lt_succ_of_lt (ih hfound)

/-- What a line in front of a body says. -/
inductive HeaderLine where
  /-- Nothing. -/
  | blank
  /-- The number of bytes of the body. -/
  | contentLength (size : Nat)
  /-- Something that does not matter here. -/
  | other
  deriving DecidableEq, Repr

namespace HeaderLine

/-- The name of the header that announces the size of a body. -/
def contentLengthName : String := "content-length"

/-- What a line without the blanks around it says. -/
def ofText (line : String) : Except SessionError HeaderLine :=
  if line.isEmpty then .ok blank
  else match Text.splitOnFirst (· = ':') line with
    | none => .error (.protocol (.malformedHeader line))
    | some (name, value) =>
        if Text.equalIgnoringCase (Text.trim name) contentLengthName then
          match Text.wordOf? (Text.trim value) with
          | some size => .ok (contentLength size)
          | none => .error (.protocol (.invalidLength (Text.trim value)))
        else .ok other

/-- What the bytes of a line say. -/
def ofBytes (line : List UInt8) : Except SessionError HeaderLine :=
  match Text.ofBytes? line with
  | some text => ofText (Text.trim text)
  | none => .error (.stream (.notText (Text.firstFault line)))

end HeaderLine

end LanguageClient
