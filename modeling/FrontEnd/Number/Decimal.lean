import FrontEnd.Number.Binary64
import FrontEnd.Number.Integer

/-!
# Decimal numerals

A `Decimal` is `digits · 10 ^ exponent`. `readDecimal?` reads one from digits with an optional point
and an optional power of ten, and `Decimal.toBinary64` rounds it to the nearest double.
`readBinary64?` adds the sign and the words for infinity and NaN.
-/

namespace FrontEnd

/-- An unsigned decimal number. -/
structure Decimal where
  digits : Nat
  exponent : Int
deriving DecidableEq, Repr

namespace Decimal

/-- The nearest double. Numbers beyond every double and below half of the smallest are told by
their order of magnitude alone, so that no huge power of ten is computed. -/
def toBinary64 (d : Decimal) (negative : Bool) : Binary64 :=
  if d.digits = 0 ∨ d.exponent + d.digits.log2 < -400 then .ofMagnitude negative 0
  else if 400 < d.exponent then .infinity negative
  else .nearest negative (d.digits * Nat.pow 10 d.exponent.toNat) (Nat.pow 10 (-d.exponent).toNat)

end Decimal

/-- The power of ten at the end of a numeral: nothing, or a mark and an integer. -/
def readExponent? : List Char → Option Int
  | [] => some 0
  | c :: cs => if c = 'e' ∨ c = 'E' then readInt? cs else none

/-- The number written by digits with at most one point and an optional exponent; a digit must stand
on one side of the point at least. -/
def readDecimal? (cs : List Char) : Option Decimal :=
  let whole := cs.takeWhile Char.isDigit
  let (fraction, rest) := match cs.dropWhile Char.isDigit with
    | '.' :: rest => (rest.takeWhile Char.isDigit, rest.dropWhile Char.isDigit)
    | rest => ([], rest)
  if whole.isEmpty && fraction.isEmpty then none
  else (readExponent? rest).map fun exponent =>
    ⟨natOfDigits (whole ++ fraction), exponent - fraction.length⟩

/-- The double written without a sign. The words count in any mixture of cases. -/
def readMagnitude? (negative : Bool) (cs : List Char) : Option Binary64 :=
  let word := String.ofList (cs.map Char.toLower)
  if word = "inf" ∨ word = "infinity" then some (.infinity negative)
  else if word = "nan" then some (.nan negative)
  else (readDecimal? cs).map (·.toBinary64 negative)

/-- The double written by a whole text. -/
def readBinary64? (s : String) : Option Binary64 :=
  match s.toList with
  | '-' :: cs => readMagnitude? true cs
  | '+' :: cs => readMagnitude? false cs
  | cs => readMagnitude? false cs

end FrontEnd
