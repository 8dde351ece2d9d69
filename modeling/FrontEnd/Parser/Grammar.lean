import FrontEnd.Parser.Production

/-!
# The grammar

`Nonterminal.parser` ties the productions together by recursion on the bound, and
`Nonterminal.parse` runs a phrase from any cursor on.

`parseProgram` parses a program: a list of statements that uses up all tokens. A token that the
language does not know is reported before anything else, wherever it stands.
-/

namespace FrontEnd

open FrontEnd.Parser

namespace Nonterminal

/-- The production of each phrase. -/
def production {n : Nat} (below : ∀ p : Nonterminal, Parser n p.Tree) :
    ∀ p : Nonterminal, Parser (n + 1) p.Tree
  | type => Production.type below
  | typeBase => Production.typeBase below
  | params => Production.params below
  | paramList => Production.paramList below
  | param => Production.param below
  | expr => Production.expr below
  | condition => Production.condition below
  | array => Production.array below
  | exprList => Production.exprList below
  | closure => Production.closure below
  | addExpr => Production.addExpr below
  | term => Production.term below
  | factor => Production.factor below
  | idFactor => Production.idFactor below
  | indices => Production.indices below
  | arguments => Production.arguments below
  | argList => Production.argList below
  | arg => Production.arg below
  | stmts => Production.stmts below
  | stmt => Production.stmt below
  | ifStmt => after .kwIf fun _ => Production.ifRest below
  | whileStmt => after .kwWhile fun _ => Production.whileRest below
  | idStmt => after .identifier (Production.idRest below)
  | returnStmt => after .kwReturn fun _ => Production.returnRest below
  | letStmt => after .kwLet fun _ => Production.letRest below
  | funStmt => after .kwFun fun _ => Production.funRest below

/-- The parser of a phrase at each bound. -/
def parser : (n : Nat) → (p : Nonterminal) → Parser n p.Tree
  | 0, _ => fun c => absurd c.2 (Nat.not_lt_zero _)
  | n + 1, p => production (parser n) p

@[simp] theorem parser_succ (n : Nat) (p : Nonterminal) :
    parser (n + 1) p = production (parser n) p := rfl

/-- Parses a phrase from a cursor on. Answers the tree or a diagnostic, and where parsing
stopped. -/
def parse (p : Nonterminal) (c : Cursor) : Except Diagnostic p.Tree × Cursor :=
  run (fun n => parser n p) c

end Nonterminal

/-! ## Programs -/

/-- The statements at the front of the tokens, which have to be all of them. -/
def parseAll (c : Cursor) : Except Diagnostic Program :=
  match Nonterminal.stmts.parse c with
  | (.error d, _) => .error d
  | (.ok body, ⟨[], _⟩) => .ok ⟨body⟩
  | (.ok _, ⟨t :: _, _⟩) => .error (.placed (.trailingTokens t.value) t.position)

/-- The program that `tokens` of `file` form. -/
def parseProgram (tokens : List Token) (file : String) : Except Diagnostic Program :=
  match tokens.find? (·.kind == .unknown) with
  | some t => .error (.placed (.unrecognisedToken t.value) t.position)
  | none => parseAll (.ofTokens tokens file)

end FrontEnd
