/-!
# Doubles in exact arithmetic

A finite double is `significand · 2 ^ exponent`. Its operations are done on exact quotients of
natural numbers and rounded once, so nothing here rests on the machine's own arithmetic.

* `Double.ofQuotient` — the double nearest to a quotient, a tie going to the even significand.
* `Double.mul`, `Double.div` — the rounded product and quotient of two doubles.
* `Double.shortest` — the fewest decimal digits that read back as the double.
-/

namespace LanguageClient

/-- The magnitude of a double, by the 63 bits below its sign. -/
abbrev Double := Nat

namespace Double

/-- The leading bit of a significand, which is not written. -/
def leadingBit : Nat := 0x10000000000000

/-- The bits of an infinite magnitude. -/
def infinity : Double := 2047 * leadingBit

/-- The integer significand of a finite magnitude. -/
def significand (x : Double) : Nat :=
  if x / leadingBit = 0 then x else x % leadingBit + leadingBit

/-- The power of two that the significand is multiplied by. -/
def exponent (x : Double) : Int :=
  if x / leadingBit = 0 then -1074 else (x / leadingBit : Nat) - 1075

/-- The numerator of a finite magnitude as a quotient of natural numbers. -/
def numerator (x : Double) : Nat := x.significand * Nat.pow 2 x.exponent.toNat

/-- The denominator of a finite magnitude as a quotient of natural numbers. -/
def denominator (x : Double) : Nat := Nat.pow 2 (-x.exponent).toNat

/-- The quotient rounded to the nearest natural number, a tie going to the even one. -/
def roundQuotient (num den : Nat) : Nat :=
  let low := num / den
  let rest := 2 * (num % den)
  if rest < den then low
  else if den < rest then low + 1
  else low + low % 2

/-- The double nearest to a quotient, a tie going to the even significand; infinite when the
quotient is too large. -/
def ofQuotient (num den : Nat) : Double :=
  if num = 0 then 0
  else
    let guess : Int := (Nat.log2 num : Int) - Nat.log2 den - 52
    let small := num * Nat.pow 2 (-guess).toNat < den * Nat.pow 2 guess.toNat * leadingBit
    let q := max (if small then guess - 1 else guess) (-1074)
    let m := roundQuotient (num * Nat.pow 2 (-q).toNat) (den * Nat.pow 2 q.toNat)
    let bits := if m < leadingBit then m else (q + 1074).toNat * leadingBit + m
    min bits infinity

/-- The rounded product of two finite magnitudes. -/
def mul (x y : Double) : Double :=
  ofQuotient (x.numerator * y.numerator) (x.denominator * y.denominator)

/-- The rounded quotient of two finite magnitudes, for a divisor other than zero. -/
def div (x y : Double) : Double :=
  ofQuotient (x.numerator * y.denominator) (x.denominator * y.numerator)

/-- Digits and a power of ten: `digits · 10 ^ scale`. -/
structure Decimal where
  /-- The digits, as a natural number. -/
  digits : Nat
  /-- The power of ten. -/
  scale : Int
  deriving DecidableEq, Repr

/-- The number of decimal digits before the point of a positive quotient: the least `k` with
`num / den < 10 ^ k`, negative when zeros follow the point. -/
def wholeDigits (num den : Nat) : Int :=
  if den ≤ num then (Nat.toDigits 10 (num / den)).length
  else -(((List.range 400).find? fun zeros => den ≤ num * Nat.pow 10 (zeros + 1)).getD 400 : Nat)

/-- The point of the decimal grid `10 ^ scale` that reads back as the positive double `x` and lies
nearest to it, when one of the two neighbours of `x` on the grid does. -/
def onGrid? (x : Double) (scale : Int) : Option Nat :=
  -- Everything is counted in quarters of the last binary place, over one denominator.
  let unit := x.exponent - 2
  let scaleUp := fun n : Nat => n * Nat.pow 2 unit.toNat * Nat.pow 10 (-scale).toNat
  let gridUp := fun n : Nat => n * Nat.pow 10 scale.toNat * Nat.pow 2 (-unit).toNat
  let centre := scaleUp (4 * x.significand)
  let below := if x.significand = leadingBit ∧ x.exponent ≠ -1074 then 1 else 2
  let low := scaleUp (4 * x.significand - below)
  let high := scaleUp (4 * x.significand + 2)
  let inside := fun n : Nat =>
    if x.significand % 2 = 0 then low ≤ gridUp n && gridUp n ≤ high
    else low < gridUp n && gridUp n < high
  let floor := centre / gridUp 1
  match inside floor, inside (floor + 1) with
  | true, true =>
      some (if centre - gridUp floor ≤ gridUp (floor + 1) - centre then floor else floor + 1)
  | true, false => some floor
  | false, true => some (floor + 1)
  | false, false => none

/-- The candidate of `n + 1` digits for a positive double below `10 ^ size`. The next power of ten
counts as the single digit one. -/
def candidate? (x : Double) (size : Int) (n : Nat) : Option Decimal :=
  (x.onGrid? (size - (n + 1 : Nat))).map fun digits =>
    if digits = Nat.pow 10 (n + 1) then ⟨1, size⟩ else ⟨digits, size - (n + 1 : Nat)⟩

/-- The fewest decimal digits that read back as a positive finite double; seventeen always do. -/
def shortest (x : Double) : Decimal :=
  ((List.range 17).findSome? (x.candidate? (wholeDigits x.numerator x.denominator))).getD ⟨0, 0⟩

end Double

end LanguageClient
