/-!
# Integer numerals

`readInt?` reads a whole text as an integer: an optional sign and then one or more ASCII digits,
leading zeros allowed. `readInt64?` accepts only the integers that a signed word of 64 bits holds.
-/

namespace FrontEnd

/-- The number that decimal digits write, most significant first. -/
def natOfDigits (ds : List Char) : Nat := ds.foldl (fun n d => 10 * n + (d.toNat - 48)) 0

/-- The natural number written by a text of digits alone. -/
def readNat? (cs : List Char) : Option Nat :=
  if cs ≠ [] ∧ cs.all Char.isDigit then some (natOfDigits cs) else none

/-- The integer written by an optional sign and digits. -/
def readInt? : List Char → Option Int
  | '-' :: cs => (readNat? cs).map fun n => -(n : Int)
  | '+' :: cs => (readNat? cs).map Int.ofNat
  | cs => (readNat? cs).map Int.ofNat

/-- The integers of a signed word of 64 bits. -/
def Int64Range (i : Int) : Prop := -0x8000000000000000 ≤ i ∧ i < 0x8000000000000000

instance (i : Int) : Decidable (Int64Range i) := inferInstanceAs (Decidable (_ ∧ _))

/-- The integer written by a text, if there is one and it fits 64 bits. -/
def readInt64? (s : String) : Option Int := (readInt? s.toList).filter fun i => Int64Range i

theorem range_of_readInt64? {s : String} {i : Int} (h : readInt64? s = some i) : Int64Range i := by
  simpa using (Option.filter_eq_some_iff.1 h).2

end FrontEnd
