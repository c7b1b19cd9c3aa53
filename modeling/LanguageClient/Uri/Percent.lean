import LanguageClient.Text.Utf8

/-!
# Percent encoding

A byte is written as `%` and two upper-case hexadecimal digits. Which characters are encoded depends
on where they stand; a percent sign is never encoded again.

* `Uri.encodeWith` — a text with the characters of a set encoded.
* `Uri.decode` — the bytes of a text whose escapes are resolved.
-/

namespace LanguageClient
namespace Uri

/-- An upper-case hexadecimal digit. -/
def upperHexDigit (n : Nat) : Char := ((Nat.toDigits 16 n).headD '0').toUpper

/-- The escape of a byte. -/
def escapeByte (b : UInt8) : List Char :=
  ['%', upperHexDigit (b.toNat / 16), upperHexDigit (b.toNat % 16)]

/-- Controls and everything outside ASCII. -/
def isControl (c : Char) : Bool := c.toNat < 0x20 || 0x7E < c.toNat

/-- What is encoded inside the segments of a path. -/
def isEncodedInPath (c : Char) : Bool :=
  isControl c || [' ', '"', '#', '<', '>', '?', '`', '\x7b', '\x7d'].contains c

/-- A text with the characters of a set encoded. -/
def encodeWith (encoded : Char → Bool) (cs : List Char) : List Char :=
  cs.flatMap fun c =>
    if encoded c then (Text.bytes (String.singleton c)).flatMap escapeByte else [c]

/-- The value of a hexadecimal digit. -/
def hexDigitValue? (c : Char) : Option Nat :=
  if c.isDigit then some (c.toNat - '0'.toNat)
  else if 'a' ≤ c ∧ c ≤ 'f' then some (c.toNat - 'a'.toNat + 10)
  else if 'A' ≤ c ∧ c ≤ 'F' then some (c.toNat - 'A'.toNat + 10)
  else none

/-- The bytes of a text whose escapes are resolved; an incomplete escape stands for itself. -/
def decode : List Char → List UInt8
  | [] => []
  | '%' :: a :: b :: rest =>
      match hexDigitValue? a, hexDigitValue? b with
      | some high, some low => UInt8.ofNat (high * 16 + low) :: decode rest
      | _, _ => 37 :: decode (a :: b :: rest)
  | c :: rest => Text.bytes (String.singleton c) ++ decode rest
termination_by cs => cs.length

end Uri
end LanguageClient
