import FrontEnd.Token.Kind

/-!
# Lexical patterns

A `Pattern` recognises a class of lexemes at the front of a text and answers how many characters it
takes (`Pattern.matchLength`, zero for none). `rules` lists the patterns of the language with the
kinds they make. `longest` picks the rule that takes most; of two rules that take equally much the
later wins, so `int` is a primitive type and `integer` an identifier.
-/

namespace FrontEnd

/-- A class of lexemes. -/
inductive Pattern where
  /-- One or more ASCII letters. -/
  | letters
  /-- One or more ASCII digits. -/
  | digits
  /-- Digits, a point, and digits again. -/
  | decimal
  /-- The first of some spellings that the text starts with. -/
  | oneOf (spellings : List String)

namespace Pattern

/-- How many characters of the longest run at the front satisfy `p`. -/
def runLength (p : Char → Bool) (cs : List Char) : Nat := (cs.takeWhile p).length

/-- The length of a number with a fraction, zero unless digits stand on both sides of the point. -/
def decimalLength (cs : List Char) : Nat :=
  match runLength Char.isDigit cs, cs.dropWhile Char.isDigit with
  | whole + 1, '.' :: rest =>
    match runLength Char.isDigit rest with
    | 0 => 0
    | fraction + 1 => (whole + 1) + 1 + (fraction + 1)
  | _, _ => 0

/-- How many characters the pattern takes from the front of a text; zero means that it does not
match. -/
def matchLength : Pattern → List Char → Nat
  | letters, cs => runLength Char.isAlpha cs
  | digits, cs => runLength Char.isDigit cs
  | decimal, cs => decimalLength cs
  | oneOf spellings, cs => ((spellings.find? (·.toList.isPrefixOf cs)).map (·.length)).getD 0

end Pattern

/-- The patterns of the language in order of precedence, lowest first. -/
def rules : List (Pattern × TokenKind) :=
  [(.letters, .identifier),
    (.digits, .number),
    (.decimal, .float),
    (.oneOf ["+", "-"], .addOp),
    (.oneOf ["*", "/"], .mulOp),
    (.oneOf ["int", "float", "bool", "none"], .primitive),
    (.oneOf ["and", "or", "xor", "nor", "nand"], .boolOp),
    (.oneOf [">=", "<=", "==", "<", ">", "!="], .relOp)] ++
  TokenKind.reserved.map fun (spelling, kind) => (.oneOf [spelling], kind)

/-- Keeps the better of the best match so far and the match of one more rule. -/
def betterMatch (cs : List Char) (best : Option (TokenKind × Nat)) (rule : Pattern × TokenKind) :
    Option (TokenKind × Nat) :=
  let length := rule.1.matchLength cs
  if 0 < length ∧ ∀ b ∈ best, b.2 ≤ length then some (rule.2, length) else best

/-- The kind and length of the longest match of a rule at the front, if any rule matches. -/
def longest (cs : List Char) : Option (TokenKind × Nat) := rules.foldl (betterMatch cs) none

/-- A match is never empty. -/
theorem length_pos_of_longest {cs : List Char} {best : TokenKind × Nat}
    (h : longest cs = some best) : 0 < best.2 := by
  have step : ∀ (rs : List (Pattern × TokenKind)) (start : Option (TokenKind × Nat)),
      (∀ b ∈ start, 0 < b.2) → ∀ b ∈ rs.foldl (betterMatch cs) start, 0 < b.2 := by
    intro rs
    induction rs with
    | nil => exact fun _ h => h
    | cons r rs ih =>
      intro start hstart
      refine ih _ fun b hb => ?_
      simp only [betterMatch] at hb
      split at hb
      · next hlt =>
        cases hb
        exact hlt.1
      · exact hstart b hb
  exact step rules none (by simp) best h

end FrontEnd
