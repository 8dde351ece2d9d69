import FrontEnd.Text.Characters

/-!
# Lines of a text

`pieces` cuts a text at every line feed. `lines` are the pieces as a reader counts them: a carriage
return before the line feed belongs to the line end, and nothing after the last line feed is no
line. `line?` finds a line by its number, counted from one, and `trim` takes the blanks off both
ends of it.
-/

namespace FrontEnd

/-- Puts a character in front of the first piece, or a line feed in front of all of them. -/
def addToPieces (c : Char) : List (List Char) → List (List Char)
  | [] => [[c]]
  | piece :: rest => if c = '\n' then [] :: piece :: rest else (c :: piece) :: rest

/-- The stretches between line feeds; one more than there are line feeds. -/
def pieces (cs : List Char) : List (List Char) := cs.foldr addToPieces [[]]

@[simp] theorem pieces_nil : pieces [] = [[]] := rfl

theorem pieces_cons (c : Char) (cs : List Char) : pieces (c :: cs) = addToPieces c (pieces cs) :=
  rfl

/-- A line without the carriage return of its end. -/
def dropReturn (piece : List Char) : List Char :=
  if piece.getLast? = some '\r' then piece.dropLast else piece

/-- Lines from pieces: every piece but the last was ended by a line feed. -/
def endedLines : List (List Char) → List (List Char)
  | [] => []
  | [last] => if last = [] then [] else [last]
  | piece :: rest => dropReturn piece :: endedLines rest

/-- The lines of a text. -/
def lines (source : String) : List String := (endedLines (pieces source.toList)).map String.ofList

/-- The line with a number, if the text has so many. -/
def line? (source : String) : Nat → Option String
  | 0 => none
  | n + 1 => (lines source)[n]?

/-- Characters without the blanks at either end. -/
def trimBlanks (cs : List Char) : List Char :=
  ((cs.dropWhile isBlank).reverse.dropWhile isBlank).reverse

/-- A text without the blanks at either end. -/
def trim (s : String) : String := String.ofList (trimBlanks s.toList)

end FrontEnd
