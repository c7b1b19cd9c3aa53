import LanguageClient.Json.Basic
import LanguageClient.Json.Double

/-!
# The text of numbers

Writing: an integer in decimal digits; a double with the fewest digits that read back, positional
where its decimal exponent lies between -5 and 15 and always with a point, else with an exponent.

Reading: digits without a leading zero, then an optional fraction and an optional exponent. The
digits are gathered into one unsigned word; those that no longer fit are dropped. A number without
fraction and exponent that fits a word is an integer, except minus zero; any other is a double:
the gathered digits multiplied or divided by a power of ten.

* `Number.text` — the written form.
* `Number.read?` — the number at the front of a text, and what follows it.
-/

namespace LanguageClient

namespace Number

/-- The decimal digits of a natural number. -/
def natText (n : Nat) : List Char := Nat.toDigits 10 n

/-- The decimal digits of an integer, after a minus sign when it is negative. -/
def intText : Int → List Char
  | .ofNat n => natText n
  | .negSucc n => '-' :: natText (n + 1)

/-- The layout of a positive double: digits, where the point stands, and when an exponent is
written instead. -/
def decimalText (d : Double.Decimal) : List Char :=
  let digits := natText d.digits
  let point : Int := digits.length + d.scale
  if 0 ≤ d.scale ∧ point ≤ 16 then
    digits ++ List.replicate d.scale.toNat '0' ++ ['.', '0']
  else if 0 < point ∧ point ≤ 16 then
    digits.take point.toNat ++ '.' :: digits.drop point.toNat
  else if -5 < point ∧ point ≤ 0 then
    '0' :: '.' :: List.replicate (-point).toNat '0' ++ digits
  else
    let lead := match digits with
      | first :: second :: rest => first :: '.' :: second :: rest
      | digits => digits
    lead ++ 'e' :: (if 0 < point then ['+'] else []) ++ intText (point - 1)

/-- The bit of the sign of a double. -/
def signBit : Nat := 0x8000000000000000

/-- The text of a finite double. -/
def floatText (bits : UInt64) : List Char :=
  let sign := if bits.toNat / signBit = 1 then ['-'] else []
  let magnitude : Double := bits.toNat % signBit
  sign ++ if magnitude = 0 then ['0', '.', '0'] else decimalText (Double.shortest magnitude)

/-- The text of a number. -/
def text : Number → List Char
  | .int n => intText n
  | .float bits => floatText bits

/-- The double of a sign and a magnitude. -/
def ofDouble (negative : Bool) (magnitude : Double) : Number :=
  .float (UInt64.ofNat ((if negative then signBit else 0) + magnitude))

/-- The greatest unsigned word of 64 bits. -/
def maxWord : Nat := 0xFFFFFFFFFFFFFFFF

/-- The double nearest to a power of ten. -/
def powerOfTen (k : Nat) : Double := Double.ofQuotient (Nat.pow 10 k) 1

/-- A double times a power of ten, in steps of at most 308 places; none when it is too large. -/
def scaled? (magnitude : Double) (exponent : Int) : Option Double :=
  if h : exponent < -308 then
    if magnitude = 0 then some 0
    else scaled? (magnitude.div (powerOfTen 308)) (exponent + 308)
  else if exponent ≤ 308 then
    if 0 ≤ exponent then
      let product := magnitude.mul (powerOfTen exponent.toNat)
      if product = Double.infinity then none else some product
    else some (magnitude.div (powerOfTen (-exponent).toNat))
  else if magnitude = 0 then some 0
  else none
termination_by (-exponent).toNat
decreasing_by omega

/-- The number that the gathered digits and a power of ten stand for; none when it is too
large. -/
def ofParts? (negative : Bool) (gathered : Nat) (exponent : Int) : Option Number :=
  (scaled? (Double.ofQuotient gathered 1) exponent).map (ofDouble negative)

/-- The integer of the gathered digits. Minus zero, and what is below the least signed word, are
doubles. -/
def ofWhole (negative : Bool) (gathered : Nat) : Number :=
  if negative then
    if gathered = 0 ∨ 0x8000000000000000 < gathered then
      ofDouble true (Double.ofQuotient gathered 1)
    else .int (-gathered)
  else .int gathered

/-- The value of a decimal digit. -/
def digitValue (c : Char) : Nat := c.toNat - '0'.toNat

/-- The greatest signed word of 32 bits, which bounds written exponents. -/
def maxExponent : Nat := 0x7FFFFFFF

/-- The natural number of some digits; none when it goes beyond the bound of exponents. -/
def exponentOf? (digits : List Char) : Option Nat :=
  digits.foldl (fun n? c => match n? with
    | some n => if 10 * n + digitValue c ≤ maxExponent then some (10 * n + digitValue c) else none
    | none => none) (some 0)

/-- Reads what may follow the letter of an exponent. -/
def readExponent? (negative : Bool) (gathered : Nat) (exponent : Int) (cs : List Char) :
    Option (Number × List Char) :=
  let (down, cs) := match cs with
    | '+' :: rest => (false, rest)
    | '-' :: rest => (true, rest)
    | cs => (false, cs)
  let digits := cs.takeWhile Char.isDigit
  let rest := cs.dropWhile Char.isDigit
  if digits.isEmpty then none
  else match exponentOf? digits with
    | some n =>
        (ofParts? negative gathered (if down then exponent - n else exponent + n)).map (·, rest)
    | none => if gathered ≠ 0 ∧ !down then none else some (ofDouble negative 0, rest)

/-- Reads an exponent if there is one, and builds the double. -/
def finishDouble? (negative : Bool) (gathered : Nat) (exponent : Int) :
    List Char → Option (Number × List Char)
  | 'e' :: rest => readExponent? negative gathered exponent rest
  | 'E' :: rest => readExponent? negative gathered exponent rest
  | rest => (ofParts? negative gathered exponent).map (·, rest)

/-- Gathers digits into a word as long as they fit; the count tells how many were taken. -/
def gather (gathered count : Nat) : List Char → Nat × Nat × List Char
  | [] => (gathered, count, [])
  | c :: rest =>
      if c.isDigit ∧ 10 * gathered + digitValue c ≤ maxWord then
        gather (10 * gathered + digitValue c) (count + 1) rest
      else (gathered, count, c :: rest)

/-- Reads the digits after the point, at least one of which has to fit the word. -/
def readFraction? (negative : Bool) (gathered : Nat) (exponent : Int) (cs : List Char) :
    Option (Number × List Char) :=
  match gather gathered 0 cs with
  | (all, count, rest) =>
      -- A digit that no longer fits is dropped with all digits after it.
      let dropped := !(rest.takeWhile Char.isDigit).isEmpty
      if count = 0 ∧ !dropped then none
      else finishDouble? negative all (exponent - count) (rest.dropWhile Char.isDigit)

/-- Reads what follows the whole part of a number. -/
def readRest? (negative : Bool) (gathered : Nat) : List Char → Option (Number × List Char)
  | '.' :: rest => readFraction? negative gathered 0 rest
  | 'e' :: rest => readExponent? negative gathered 0 rest
  | 'E' :: rest => readExponent? negative gathered 0 rest
  | rest => some (ofWhole negative gathered, rest)

/-- Reads an unsigned number. -/
def readMagnitude? (negative : Bool) : List Char → Option (Number × List Char)
  | [] => none
  | '0' :: rest =>
      match rest with
      | c :: _ => if c.isDigit then none else readRest? negative 0 rest
      | [] => readRest? negative 0 []
  | c :: rest =>
      if c.isDigit then
        match gather 0 0 (c :: rest) with
        | (gathered, _, rest) =>
            let extra := rest.takeWhile Char.isDigit
            if extra.isEmpty then readRest? negative gathered rest
            else match rest.dropWhile Char.isDigit with
              | '.' :: rest => readFraction? negative gathered extra.length rest
              | rest => finishDouble? negative gathered extra.length rest
      else none

/-- The number at the front of a text, and what follows it. -/
def read? : List Char → Option (Number × List Char)
  | '-' :: rest => readMagnitude? true rest
  | cs => readMagnitude? false cs

end Number

end LanguageClient
