import FrontEnd.Number.Binary64

/-!
# The shortest decimal form of a double

`Binary64.shortest` gives the fewest decimal digits that read back as the same double, and among
those the nearest; a tie goes up. It looks at ever finer decimal grids, and on each at the two
neighbours of the value; the first grid with a neighbour that rounds to the double wins.

`Binary64.text` lays the digits out: positionally, with one fraction digit at least, from `10 ^ -4`
up to `10 ^ 16` and for zero, and otherwise with a power of ten.
-/

namespace FrontEnd

namespace Binary64

/-- The multiple of `10 ^ k` nearest to the value among those that round to it, over `10 ^ k`.
Distances are measured in quarters of the unit, so that the ends of the interval of numbers that
round to the double are whole; the ends belong to it when the significand is even. -/
def onGrid? (x : Binary64) (k : Int) : Option Nat :=
  let step := Nat.pow 10 k.toNat * Nat.pow 2 1076
  let quarter := Nat.pow 10 (-k).toNat * Nat.pow 2 x.unit
  let value := 4 * x.significand * quarter
  let below := if x.significand = Nat.pow 2 52 ∧ 0 < x.unit then 1 else 2
  let low := value - below * quarter
  let high := value + 2 * quarter
  let inside (n : Nat) : Bool :=
    if x.significand % 2 = 0 then low ≤ n * step && n * step ≤ high
    else low < n * step && n * step < high
  let floor := value / step
  match inside floor, inside (floor + 1) with
  | true, true => some (if 2 * value < (2 * floor + 1) * step then floor else floor + 1)
  | true, false => some floor
  | false, true => some (floor + 1)
  | false, false => none

/-- An exponent of ten that is too coarse a grid for every number of the size of `x`, by at most
three places. -/
def coarse (x : Binary64) : Int :=
  ((x.significand * Nat.pow 2 x.unit).log2 - 1074 : Int) * 30103 / 100000 + 2

/-- The shortest decimal digits, as a number, and the power of ten they count. Seventeen digits
always suffice. -/
def shortest (x : Binary64) : Nat × Int :=
  let grids := (List.range 21).map fun (i : Nat) => x.coarse - i
  (grids.findSome? fun k => (x.onGrid? k).map (·, k)).getD (0, 0)

/-- Digits with a point after the first `point` of them, padded with zeros on either side, and at
least one digit after the point. -/
def positional (digits : String) (point : Int) : String :=
  let length : Int := digits.length
  let zeros (n : Int) := "".pushn '0' n.toNat
  if point ≤ 0 then "0." ++ zeros (-point) ++ digits
  else if length ≤ point then digits ++ zeros (point - length) ++ ".0"
  else String.ofList (digits.toList.take point.toNat) ++ "." ++
    String.ofList (digits.toList.drop point.toNat)

/-- Digits with a point after the first, if there are more, and a power of ten. -/
def scientific (digits : String) (point : Int) : String :=
  let exponent := toString (point - 1)
  match digits.toList with
  | [] => ""
  | [d] => String.ofList [d] ++ "e" ++ exponent
  | d :: ds => String.ofList [d] ++ "." ++ String.ofList ds ++ "e" ++ exponent

/-- The decimal text of a magnitude. -/
def magnitudeText (x : Binary64) : String :=
  if x.magnitude = 0 then "0.0"
  else if x.magnitude = infiniteMagnitude then "inf"
  else
    let (number, power) := x.shortest
    let digits := toString number
    let point := digits.length + power
    if -3 ≤ point ∧ point ≤ 16 then positional digits point else scientific digits point

/-- The text of a double. -/
def text (x : Binary64) : String :=
  if x.isNaN then "NaN" else (if x.isNegative then "-" else "") ++ x.magnitudeText

end Binary64

end FrontEnd
