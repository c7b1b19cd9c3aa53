/-!
# Blank characters

Blank means the Unicode property `White_Space`, which is wider than the ASCII blanks: it has the
no-break space and the ideographic space, and it leaves out the zero width space.

* `isBlank` — the property.
* `trim` — a text without its leading and trailing blanks.
* `splitOnFirst` — what stands before and after the first character of a kind.
-/

namespace LanguageClient
namespace Text

/-- The Unicode property `White_Space`. -/
def isBlank (c : Char) : Bool :=
  let n := c.toNat
  (0x9 ≤ n && n ≤ 0xD) || n == 0x20 || n == 0x85 || n == 0xA0 || n == 0x1680 ||
    (0x2000 ≤ n && n ≤ 0x200A) || n == 0x2028 || n == 0x2029 || n == 0x202F || n == 0x205F ||
    n == 0x3000

/-- A list of characters without its leading blanks. -/
def trimStart (cs : List Char) : List Char := cs.dropWhile isBlank

/-- A list of characters without its trailing blanks. -/
def trimEnd (cs : List Char) : List Char := (cs.reverse.dropWhile isBlank).reverse

/-- A text without its leading and trailing blanks. -/
def trim (s : String) : String := String.ofList (trimEnd (trimStart s.toList))

/-- The text before and the text after the first character that satisfies `p`, if there is one. -/
def splitOnFirst (p : Char → Bool) (s : String) : Option (String × String) :=
  match s.toList.dropWhile (fun c => !p c) with
  | [] => none
  | _ :: rest => some (String.ofList (s.toList.takeWhile fun c => !p c), String.ofList rest)

/-- Equality of two texts up to the case of ASCII letters. -/
def equalIgnoringCase (s t : String) : Bool :=
  s.toList.map Char.toLower == t.toList.map Char.toLower

/-- Whether one text begins another. -/
def beginsWith (start s : String) : Bool := start.toList.isPrefixOf s.toList

/-- Decimal digits, at least one, as the number they write. -/
def digits? (cs : List Char) : Option Nat :=
  if cs.isEmpty || !cs.all Char.isDigit then none
  else some (cs.foldl (fun n c => 10 * n + (c.toNat - '0'.toNat)) 0)

/-- A natural number below `bound` in decimal digits, with an optional plus sign before them. -/
def natBelow? (bound : Nat) (s : String) : Option Nat :=
  let cs := match s.toList with
    | '+' :: rest => rest
    | cs => cs
  match digits? cs with
  | some n => if n < bound then some n else none
  | none => none

/-- A natural number that fits a word of 64 bits. -/
def wordOf? : String → Option Nat := natBelow? 0x10000000000000000

end Text
end LanguageClient
