import LanguageClient.Text.Printable

/-!
# Quoted text

A text in quotes, in which the quote, the backslash and every character without a visible form is
written as an escape: `\n`, `\r`, `\t` and `\0` by name, the others as `\u` and their code point in
hexadecimal digits between braces.
-/

namespace LanguageClient
namespace Text

/-- A character inside quoted text. -/
def escapeQuoted (c : Char) : List Char :=
  if c = '"' then ['\\', '"']
  else if c = '\\' then ['\\', '\\']
  else if c = '\n' then ['\\', 'n']
  else if c = '\r' then ['\\', 'r']
  else if c = '\t' then ['\\', 't']
  else if c = '\x00' then ['\\', '0']
  else if isPrintable c then [c]
  else ['\\', 'u', '\x7b'] ++ Nat.toDigits 16 c.toNat ++ ['\x7d']

/-- A text in quotes. -/
def quote (s : String) : String := String.ofList ('"' :: (s.toList.flatMap escapeQuoted ++ ['"']))

end Text
end LanguageClient
