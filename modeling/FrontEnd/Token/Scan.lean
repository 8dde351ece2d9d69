import FrontEnd.Token.Basic
import FrontEnd.Token.Pattern

/-!
# From text to tokens

`tokenize` cuts a text into tokens. Spaces, tabs and carriage returns separate, a line feed
separates and starts a new line, and everywhere else the longest match of a rule is the next token.
A character that no rule accepts becomes a token of kind `unknown` by itself, so every text has
tokens and it is left to the parser to reject it.

Lengths count characters. A cut behind so many characters is one at a byte offset of the UTF-8 form,
and `scanWord_bytes` tells at which.
-/

namespace FrontEnd

/-- A character that separates tokens without ending the line. -/
def isSeparator (c : Char) : Bool := c = ' ' || c = '\t' || c = '\r'

/-- The kind and length of the token at the front of a text. -/
def nextLexeme (cs : List Char) : TokenKind × Nat := (longest cs).getD (.unknown, 1)

theorem length_nextLexeme_pos (cs : List Char) : 0 < (nextLexeme cs).2 := by
  unfold nextLexeme
  cases h : longest cs with
  | none => exact Nat.one_pos
  | some best => exact length_pos_of_longest h

/-- The tokens of a text that starts at `line`, where the first `skip` characters belong to a token
already made. -/
def scan (file : String) : (line skip : Nat) → List Char → List Token
  | _, _, [] => []
  | line, skip + 1, _ :: cs => scan file line skip cs
  | line, 0, c :: cs =>
    if c = '\n' then scan file (line + 1) 0 cs
    else if isSeparator c then scan file line 0 cs
    else
      let next := nextLexeme (c :: cs)
      ⟨next.1, String.ofList ((c :: cs).take next.2), ⟨line, file⟩⟩ ::
        scan file line (next.2 - 1) cs

/-- The tokens of `source`, placed in `file`. -/
def tokenize (source file : String) : List Token := scan file 1 0 source.toList

/-- Skipping is dropping: the characters of a finished token leave no trace. -/
theorem scan_skip (file : String) (line skip : Nat) (cs : List Char) :
    scan file line skip cs = scan file line 0 (cs.drop skip) := by
  induction cs generalizing skip with
  | nil => cases skip <;> simp [scan]
  | cons c cs ih =>
    cases skip with
    | zero => rfl
    | succ skip => simpa [scan] using ih skip

end FrontEnd
