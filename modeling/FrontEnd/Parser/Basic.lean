import FrontEnd.Parser.Cursor

/-!
# Parsers

A `Parser n` runs on cursors with fewer than `n` tokens left. It answers a value or a diagnostic,
and in either case the cursor where it stopped.

The bound is what makes the grammar total. Only `branch` takes a parser from one bound to the next:
it consumes the lookahead, so that what follows may run below the bound. A production therefore
recurses only after it has consumed a token, and no production runs below the bound zero, where
there is no cursor at all.
-/

namespace FrontEnd

/-- The cursors with fewer than `n` tokens left. -/
abbrev Cursor.Below (n : Nat) := { c : Cursor // c.rest.length < n }

/-- A parser on cursors below the bound `n`. -/
abbrev Parser (n : Nat) (α : Type) := EStateM Diagnostic (Cursor.Below n) α

namespace Parser

variable {n : Nat} {α : Type}

/-- A result below a bound is one below the next bound. -/
def raise : EStateM.Result Diagnostic (Cursor.Below n) α →
    EStateM.Result Diagnostic (Cursor.Below (n + 1)) α
  | .ok a c => .ok a ⟨c.1, Nat.lt_succ_of_lt c.2⟩
  | .error d c => .error d ⟨c.1, Nat.lt_succ_of_lt c.2⟩

/-- Consumes the lookahead and goes on below if `choose` has a continuation for it; otherwise
consumes nothing and goes on with `otherwise`. -/
def branch (choose : Token → Option (Parser n α)) (otherwise : Parser (n + 1) α) :
    Parser (n + 1) α
  | ⟨⟨[], last⟩, h⟩ => otherwise ⟨⟨[], last⟩, h⟩
  | ⟨⟨t :: rest, last⟩, h⟩ =>
    match choose t with
    | some p => raise (p ⟨⟨rest, last⟩, Nat.lt_of_succ_lt_succ h⟩)
    | none => otherwise ⟨⟨t :: rest, last⟩, h⟩

/-- The cursor. -/
def cursor : Parser n Cursor := fun c => .ok c.1 c

/-- Whether the lookahead is of a kind. -/
def isAt (kind : TokenKind) : Parser n Bool := fun c => .ok (c.1.isAt kind) c

/-- Fails because the lookahead is not what is due. -/
def unexpected (expected : String) : Parser n α := fun c => .error (c.1.unexpected expected) c

/-- Consumes a lookahead of the given kind and answers it; fails on any other. -/
def expect (kind : TokenKind) : Parser n Token
  | ⟨⟨[], last⟩, h⟩ => unexpected kind.category ⟨⟨[], last⟩, h⟩
  | ⟨⟨t :: rest, last⟩, h⟩ =>
    if t.kind = kind then .ok t ⟨⟨rest, last⟩, Nat.lt_of_succ_lt h⟩
    else unexpected kind.category ⟨⟨t :: rest, last⟩, h⟩

/-- Consumes a lookahead of the given kind; fails on any other. -/
def skip (kind : TokenKind) : Parser n Unit := do
  let _ ← expect kind
  return ()

/-- An empty list before a lookahead of the given kind, which is not consumed; or else what `list`
parses. -/
def upTo (close : TokenKind) (list : Parser n (List α)) : Parser n (List α) := do
  if ← isAt close then return [] else list

/-- Consumes a lookahead of the given kind and goes on with `next`, or else with `otherwise`. -/
def branchAt (kind : TokenKind) (next : Token → Parser n α) (otherwise : Parser (n + 1) α) :
    Parser (n + 1) α :=
  branch (fun t => if t.kind = kind then some (next t) else none) otherwise

/-- Consumes a lookahead of the given kind and goes on with `next`; fails on any other. -/
def after (kind : TokenKind) (next : Token → Parser n α) : Parser (n + 1) α :=
  branchAt kind next (unexpected kind.category)

/-- Runs a parser from a cursor on, at the least bound that admits the cursor. Answers a value or a
diagnostic, and where parsing stopped. -/
def run (p : ∀ n, Parser n α) (c : Cursor) : Except Diagnostic α × Cursor :=
  match p (c.rest.length + 1) ⟨c, Nat.lt_succ_self _⟩ with
  | .ok a stop => (.ok a, stop.1)
  | .error d stop => (.error d, stop.1)

end Parser

end FrontEnd
