import FrontEnd.Fault.Basic

/-!
# Cursors

A `Cursor` is a place in a list of tokens: the tokens that are left, the first of them being the
lookahead, and the place to blame when they run out.
-/

namespace FrontEnd

/-- The tokens left to parse, and the place of the end of the input. -/
structure Cursor where
  rest : List Token
  last : Position
deriving DecidableEq, Repr

namespace Cursor

/-- The cursor before all of `tokens`. The input ends where its last token stands, or on the first
line of the file if there is none. -/
def ofTokens (tokens : List Token) (file : String) : Cursor :=
  ⟨tokens, (tokens.getLast?.map (·.position)).getD ⟨1, file⟩⟩

/-- The kind of the token `n` places after the lookahead. -/
def kind? (c : Cursor) (n : Nat) : Option TokenKind := c.rest[n]?.map (·.kind)

/-- Whether the lookahead is of a kind. -/
def isAt (c : Cursor) (kind : TokenKind) : Bool := c.kind? 0 == some kind

/-- The place of the lookahead, or of the end of the input. -/
def position (c : Cursor) : Position := (c.rest.head?.map (·.position)).getD c.last

/-- The cursor after the lookahead. -/
def advance (c : Cursor) : Cursor := { c with rest := c.rest.tail }

/-- The diagnostic for a lookahead that is not what is due. -/
def unexpected (c : Cursor) (expected : String) : Diagnostic :=
  match c.rest with
  | t :: _ => .placed (.unexpectedToken t.value expected) t.position
  | [] => .placed (.unexpectedEnd expected) c.last

/-- Whether a closure starts here. An open parenthesis opens one if it is followed by a closing one
or by a name and a colon, neither of which can begin an expression in parentheses. -/
def opensClosure (c : Cursor) : Bool :=
  c.isAt .openParen &&
    (c.kind? 1 == some .closeParen || (c.kind? 1 == some .identifier && c.kind? 2 == some .colon))

end Cursor

end FrontEnd
