import FrontEnd.Syntax.Tree

/-!
# Phrases

`Nonterminal` lists the phrases of the language and `Nonterminal.Tree` the trees they make.
-/

namespace FrontEnd

/-- The phrases of the language. The lists named `…List` have one member at least. -/
inductive Nonterminal where
  | type
  | typeBase
  | params
  | paramList
  | param
  | expr
  | condition
  | array
  | exprList
  | closure
  | addExpr
  | term
  | factor
  | idFactor
  | indices
  | arguments
  | argList
  | arg
  | stmts
  | stmt
  | ifStmt
  | whileStmt
  | idStmt
  | returnStmt
  | letStmt
  | funStmt
deriving DecidableEq, Repr

namespace Nonterminal

/-- What parsing a phrase makes. -/
abbrev Tree : Nonterminal → Type
  | type | typeBase => Ty
  | params | paramList => List Param
  | param => Param
  | expr | condition | array | closure => Expr
  | exprList | indices => List Expr
  | addExpr => AddExpr
  | term => Term
  | factor | idFactor => Factor
  | arguments | argList => List Arg
  | arg => Arg
  | stmts => List Stmt
  | stmt => Option Stmt
  | ifStmt | whileStmt | idStmt | returnStmt | letStmt | funStmt => Stmt

end Nonterminal

end FrontEnd
