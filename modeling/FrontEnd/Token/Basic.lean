import FrontEnd.Token.Kind

/-!
# Tokens and positions

A `Token` is a lexeme with its kind and the line on which it stands. Two tokens have the same
`lexeme` when they agree on kind and text, wherever they stand.
-/

namespace FrontEnd

/-- A line of a named file; lines count from one. -/
structure Position where
  line : Nat
  file : String
deriving DecidableEq, Repr

/-- The file name of text that comes from no file. -/
def defaultFile : String := "shell"

/-- A lexeme, its kind and the place where it stands. -/
structure Token where
  kind : TokenKind
  value : String
  position : Position
deriving DecidableEq, Repr

namespace Token

/-- A token without its position. -/
def lexeme (t : Token) : TokenKind × String := (t.kind, t.value)

/-- A token as listings show it: its category and its text. -/
def display (t : Token) : String := s!"({t.kind.category}, {t.value})"

end Token

end FrontEnd
