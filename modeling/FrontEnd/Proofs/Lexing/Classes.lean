import FrontEnd.Token.Scan

/-!
# Scanning by classes of characters

Tokens as a reader finds them: the first character of a token tells what it is, and no rules compete
for it.

- `classLexeme`: the kind and length of the token at the front of a word.
- `scanWord`: the tokens of a word.
- `scanLine`: the tokens of a line, whose words are scanned each by itself.
-/

namespace FrontEnd

/-- The words with a kind of their own. -/
def wordKinds : List (String × TokenKind) :=
  [("int", .primitive), ("float", .primitive), ("bool", .primitive), ("none", .primitive),
    ("and", .boolOp), ("or", .boolOp), ("xor", .boolOp), ("nor", .boolOp), ("nand", .boolOp),
    ("if", .kwIf), ("then", .kwThen), ("else", .kwElse), ("fi", .kwFi), ("while", .kwWhile),
    ("do", .kwDo), ("done", .kwDone), ("let", .kwLet), ("fun", .kwFun), ("begin", .kwBegin),
    ("end", .kwEnd), ("return", .kwReturn)]

/-- The kind of a run of letters. -/
def wordKind (run : List Char) : TokenKind :=
  (wordKinds.lookup (String.ofList run)).getD .identifier

/-- The digits behind a point at the front. -/
def fractionDigits : List Char → List Char
  | '.' :: rest => rest.takeWhile Char.isDigit
  | _ => []

/-- The number at the front: with a fraction if a point and a digit follow its digits. -/
def numberLexeme (cs : List Char) : TokenKind × Nat :=
  let whole := cs.takeWhile Char.isDigit
  let fraction := fractionDigits (cs.dropWhile Char.isDigit)
  if fraction = [] then (.number, whole.length)
  else (.float, whole.length + 1 + fraction.length)

/-- The marks of two characters. -/
def doubleMark : Char → Char → Option TokenKind
  | '<', '-' => some .assign
  | '-', '>' => some .arrow
  | '<', '=' => some .relOp
  | '>', '=' => some .relOp
  | '=', '=' => some .relOp
  | '!', '=' => some .relOp
  | _, _ => none

/-- The marks of one character; any other character is unknown. -/
def singleMark : Char → TokenKind
  | '<' => .relOp
  | '>' => .relOp
  | '+' => .addOp
  | '-' => .addOp
  | '*' => .mulOp
  | '/' => .mulOp
  | '(' => .openParen
  | ')' => .closeParen
  | '[' => .openBracket
  | ']' => .closeBracket
  | '\x7b' => .openCurly
  | '\x7d' => .closeCurly
  | ';' => .semicolon
  | ':' => .colon
  | ',' => .comma
  | _ => .unknown

/-- The operator or mark that begins with `c`: two characters if they are one together. -/
def markLexeme (c : Char) (cs : List Char) : TokenKind × Nat :=
  match cs.head?.bind (doubleMark c) with
  | some kind => (kind, 2)
  | none => (singleMark c, 1)

/-- The kind and length of the token that begins with `c`. -/
def classLexeme (c : Char) (cs : List Char) : TokenKind × Nat :=
  if c.isAlpha then
    let run := (c :: cs).takeWhile Char.isAlpha
    (wordKind run, run.length)
  else if c.isDigit then numberLexeme (c :: cs)
  else markLexeme c cs

theorem numberLexeme_pos {c : Char} (hc : c.isDigit = true) (cs : List Char) :
    0 < (numberLexeme (c :: cs)).2 := by
  have hpos : 0 < ((c :: cs).takeWhile Char.isDigit).length := by
    rw [List.takeWhile_cons_of_pos hc]
    exact Nat.succ_pos _
  unfold numberLexeme
  dsimp only
  split
  · exact hpos
  · exact Nat.lt_of_lt_of_le hpos (by omega)

theorem markLexeme_pos (c : Char) (cs : List Char) : 0 < (markLexeme c cs).2 := by
  unfold markLexeme
  split
  · exact Nat.two_pos
  · exact Nat.one_pos

theorem classLexeme_pos (c : Char) (cs : List Char) : 0 < (classLexeme c cs).2 := by
  unfold classLexeme
  split
  · next hc =>
    rw [List.takeWhile_cons_of_pos hc]
    exact Nat.succ_pos _
  · split
    · next hc => exact numberLexeme_pos hc cs
    · exact markLexeme_pos c cs

/-- The tokens of a word, one behind the other. -/
def scanWord : List Char → List (TokenKind × String)
  | [] => []
  | c :: cs =>
    let next := classLexeme c cs
    (next.1, String.ofList ((c :: cs).take next.2)) :: scanWord ((c :: cs).drop next.2)
termination_by cs => cs.length
decreasing_by
  have hpos := classLexeme_pos c cs
  rw [List.length_drop, List.length_cons]
  omega

/-- The words of a line: what lies between separators. -/
def words (line : List Char) : List (List Char) :=
  (line.splitOnP isSeparator).filter (· ≠ [])

/-- The tokens of a line, word by word. -/
def scanLine (line : List Char) : List (TokenKind × String) := (words line).flatMap scanWord

end FrontEnd
