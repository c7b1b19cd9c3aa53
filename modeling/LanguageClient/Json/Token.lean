import LanguageClient.Json.NumberText

/-!
# Tokens of the exchange format

* `Token` — brackets, separators, the three names, numbers and strings.
* `Token.text` — the one written form of a token.
* `Token.ofText?` — the tokens of a text, blanks between them skipped.

In a string the quote, the backslash and the control characters are written as escapes. Reading
also accepts `\/` and any `\u` escape; the two halves of a surrogate pair have to come together.
-/

namespace LanguageClient

/-- The smallest meaningful pieces of a written value. -/
inductive Token where
  | openArray
  | closeArray
  | openObject
  | closeObject
  | comma
  | colon
  | null
  | bool (value : Bool)
  | num (value : Number)
  | str (text : String)
  deriving DecidableEq, Repr

namespace Token

/-! ### Writing -/

/-- The lower-case hexadecimal digit of a number below sixteen. -/
def hexDigit (n : Nat) : Char := (Nat.toDigits 16 n).headD '0'

/-- A character inside a written string. -/
def escape (c : Char) : List Char :=
  if c = '"' then ['\\', '"']
  else if c = '\\' then ['\\', '\\']
  else if c = '\x08' then ['\\', 'b']
  else if c = '\x0c' then ['\\', 'f']
  else if c = '\n' then ['\\', 'n']
  else if c = '\r' then ['\\', 'r']
  else if c = '\t' then ['\\', 't']
  else if c.toNat < 0x20 then
    ['\\', 'u', '0', '0', hexDigit (c.toNat / 16), hexDigit (c.toNat % 16)]
  else [c]

/-- A written string. -/
def quoted (s : String) : List Char := '"' :: (s.toList.flatMap escape ++ ['"'])

/-- The written form of a token. -/
def text : Token → List Char
  | openArray => ['[']
  | closeArray => [']']
  | openObject => ['\x7b']
  | closeObject => ['\x7d']
  | comma => [',']
  | colon => [':']
  | null => ['n', 'u', 'l', 'l']
  | bool true => ['t', 'r', 'u', 'e']
  | bool false => ['f', 'a', 'l', 's', 'e']
  | num n => n.text
  | str s => quoted s

/-! ### Reading -/

/-- The blanks that may stand between tokens. -/
def isGap (c : Char) : Bool := c = ' ' || c = '\n' || c = '\r' || c = '\t'

/-- The value of a hexadecimal digit. -/
def hexValue? (c : Char) : Option Nat :=
  if c.isDigit then some (c.toNat - '0'.toNat)
  else if 'a' ≤ c ∧ c ≤ 'f' then some (c.toNat - 'a'.toNat + 10)
  else if 'A' ≤ c ∧ c ≤ 'F' then some (c.toNat - 'A'.toNat + 10)
  else none

/-- The number of four hexadecimal digits, and what follows them. -/
def hexQuad? : List Char → Option (Nat × List Char)
  | a :: b :: c :: d :: rest =>
      match hexValue? a, hexValue? b, hexValue? c, hexValue? d with
      | some a, some b, some c, some d => some (((a * 16 + b) * 16 + c) * 16 + d, rest)
      | _, _, _, _ => none
  | _ => none

/-- The character of a `\u` escape, whose letter has been read; a high surrogate has to be followed
by the escape of a low one. -/
def readCodePoint? (cs : List Char) : Option (Char × List Char) :=
  match hexQuad? cs with
  | none => none
  | some (high, rest) =>
      if 0xDC00 ≤ high ∧ high ≤ 0xDFFF then none
      else if 0xD800 ≤ high ∧ high ≤ 0xDBFF then
        match rest with
        | '\\' :: 'u' :: rest =>
            match hexQuad? rest with
            | some (low, rest) =>
                if 0xDC00 ≤ low ∧ low ≤ 0xDFFF then
                  some (Char.ofNat (0x10000 + (high - 0xD800) * 0x400 + (low - 0xDC00)), rest)
                else none
            | none => none
        | _ => none
      else some (Char.ofNat high, rest)

/-- The character that a single letter stands for after a backslash. -/
def letterEscape? (c : Char) : Option Char :=
  if c = '"' ∨ c = '\\' ∨ c = '/' then some c
  else if c = 'b' then some '\x08'
  else if c = 'f' then some '\x0c'
  else if c = 'n' then some '\n'
  else if c = 'r' then some '\r'
  else if c = 't' then some '\t'
  else none

/-- The character of an escape, whose backslash has been read. -/
def readEscape? : List Char → Option (Char × List Char)
  | [] => none
  | c :: rest =>
      match letterEscape? c with
      | some d => some (d, rest)
      | none => if c = 'u' then readCodePoint? rest else none

theorem length_lt_of_hexQuad? {cs rest : List Char} {n : Nat} (h : hexQuad? cs = some (n, rest)) :
    rest.length < cs.length := by
  unfold hexQuad? at h
  split at h
  · split at h
    · cases h
      simp only [List.length_cons]
      omega
    · cases h
  · cases h

theorem length_lt_of_readCodePoint? {cs rest : List Char} {c : Char}
    (h : readCodePoint? cs = some (c, rest)) : rest.length < cs.length := by
  unfold readCodePoint? at h
  split at h
  · cases h
  · next high rest' hq =>
    have hlt := length_lt_of_hexQuad? hq
    split at h
    · cases h
    · split at h
      · split at h
        · split at h
          · next low rest'' hq' =>
            have hlt' := length_lt_of_hexQuad? hq'
            split at h
            · simp only [Option.some.injEq, Prod.mk.injEq] at h
              simp only [List.length_cons] at hlt
              rw [← h.2]
              omega
            · cases h
          · cases h
        · cases h
      · simp only [Option.some.injEq, Prod.mk.injEq] at h
        rw [← h.2]
        exact hlt

/-- An escape takes at least one character. -/
theorem length_lt_of_readEscape? {cs rest : List Char} {c : Char}
    (h : readEscape? cs = some (c, rest)) : rest.length < cs.length := by
  unfold readEscape? at h
  split at h
  · cases h
  · split at h
    · cases h
      simp
    · split at h
      · have hlt := length_lt_of_readCodePoint? h
        simp only [List.length_cons]
        omega
      · cases h

/-- The characters of a string whose opening quote has been read, and what follows its closing
quote. -/
def readString? (cs : List Char) : Option (List Char × List Char) :=
  match cs with
  | [] => none
  | c :: rest =>
      if c = '"' then some ([], rest)
      else if c = '\\' then
        match _ : readEscape? rest with
        | some (d, rest') =>
            match readString? rest' with
            | some (text, after) => some (d :: text, after)
            | none => none
        | none => none
      else if c.toNat < 0x20 then none
      else match readString? rest with
        | some (text, after) => some (c :: text, after)
        | none => none
termination_by cs.length
decreasing_by
  · exact Nat.lt_succ_of_lt (length_lt_of_readEscape? (by assumption))
  · simp

/-- What follows `word` at the front of a text. -/
def afterWord? (word cs : List Char) : Option (List Char) :=
  if word.isPrefixOf cs then some (cs.drop word.length) else none

/-- The token at the front of a text that begins with no blank, and what follows it. -/
def next? : List Char → Option (Token × List Char)
  | [] => none
  | c :: rest =>
      if c = '[' then some (openArray, rest)
      else if c = ']' then some (closeArray, rest)
      else if c = '\x7b' then some (openObject, rest)
      else if c = '\x7d' then some (closeObject, rest)
      else if c = ',' then some (comma, rest)
      else if c = ':' then some (colon, rest)
      else if c = '"' then
        (readString? rest).map fun found => (str (String.ofList found.1), found.2)
      else if c = 'n' then (afterWord? ['u', 'l', 'l'] rest).map (null, ·)
      else if c = 't' then (afterWord? ['r', 'u', 'e'] rest).map (bool true, ·)
      else if c = 'f' then (afterWord? ['a', 'l', 's', 'e'] rest).map (bool false, ·)
      else (Number.read? (c :: rest)).map fun found => (num found.1, found.2)

/-- The tokens of a text of at most `fuel` characters; none when some part of it is no token. -/
def scan? : Nat → List Char → Option (List Token)
  | 0, cs => if cs.isEmpty then some [] else none
  | fuel + 1, cs =>
      match cs.dropWhile isGap with
      | [] => some []
      | c :: rest =>
          match next? (c :: rest) with
          | some (token, after) => (scan? fuel after).map (token :: ·)
          | none => none

/-- The tokens of a text; none when some part of it is no token. Every token takes a character, so
the length of the text bounds their number. -/
def ofText? (cs : List Char) : Option (List Token) := scan? cs.length cs

end Token

end LanguageClient
