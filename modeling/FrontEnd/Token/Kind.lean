/-!
# Kinds of tokens

`TokenKind` is the syntactic class of a token. Every word and mark with a single meaning has a kind
of its own, listed with its spelling in `reserved`; the other kinds stand for open classes
(identifiers, literals) or for small families of spellings (operators, primitive types).

`TokenKind.category` is the name under which faults and listings mention a kind: a short class name,
or the spelling itself for a reserved word or mark (`category_of_mem_reserved`).
-/

namespace FrontEnd

/-- The syntactic class of a token. -/
inductive TokenKind where
  | identifier
  | number
  | float
  | addOp
  | mulOp
  | primitive
  | boolOp
  | relOp
  | kwIf
  | kwThen
  | kwElse
  | kwFi
  | kwWhile
  | kwDo
  | kwDone
  | kwLet
  | kwFun
  | kwBegin
  | kwEnd
  | kwReturn
  | assign
  | arrow
  | openParen
  | closeParen
  | openBracket
  | closeBracket
  | openCurly
  | closeCurly
  | semicolon
  | colon
  | comma
  | unknown
deriving DecidableEq, Repr

namespace TokenKind

/-- Every kind once, open classes first and `unknown` last. -/
def all : List TokenKind :=
  [identifier, number, float, addOp, mulOp, primitive, boolOp, relOp, kwIf, kwThen, kwElse, kwFi,
    kwWhile, kwDo, kwDone, kwLet, kwFun, kwBegin, kwEnd, kwReturn, assign, arrow, openParen,
    closeParen, openBracket, closeBracket, openCurly, closeCurly, semicolon, colon, comma, unknown]

theorem mem_all (k : TokenKind) : k ∈ all := by cases k <;> decide

/-- The words and marks that mean one thing only, with their kinds. -/
def reserved : List (String × TokenKind) :=
  [("if", kwIf), ("then", kwThen), ("else", kwElse), ("fi", kwFi), ("while", kwWhile),
    ("do", kwDo), ("done", kwDone), ("let", kwLet), ("fun", kwFun), ("begin", kwBegin),
    ("end", kwEnd), ("return", kwReturn), ("<-", assign), ("->", arrow), ("(", openParen),
    (")", closeParen), ("[", openBracket), ("]", closeBracket), ("\x7b", openCurly),
    ("\x7d", closeCurly), (";", semicolon), (":", colon), (",", comma)]

/-- The name of a kind in faults and listings. -/
def category : TokenKind → String
  | identifier => "id"
  | number => "num"
  | float => "float"
  | addOp => "addop"
  | mulOp => "mulop"
  | primitive => "primitive"
  | boolOp => "boolop"
  | relOp => "relop"
  | kwIf => "if"
  | kwThen => "then"
  | kwElse => "else"
  | kwFi => "fi"
  | kwWhile => "while"
  | kwDo => "do"
  | kwDone => "done"
  | kwLet => "let"
  | kwFun => "fun"
  | kwBegin => "begin"
  | kwEnd => "end"
  | kwReturn => "return"
  | assign => "<-"
  | arrow => "->"
  | openParen => "("
  | closeParen => ")"
  | openBracket => "["
  | closeBracket => "]"
  | openCurly => "\x7b"
  | closeCurly => "\x7d"
  | semicolon => ";"
  | colon => ":"
  | comma => ","
  | unknown => "Error"

/-- A reserved word or mark is its own category. -/
theorem category_of_mem_reserved : ∀ entry ∈ reserved, entry.2.category = entry.1 := by
  simp [reserved, category]

end TokenKind

end FrontEnd
