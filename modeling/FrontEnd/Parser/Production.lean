import FrontEnd.Number.Decimal
import FrontEnd.Parser.Basic
import FrontEnd.Parser.Phrase
import FrontEnd.Syntax.Type

/-!
# Productions

The production of a phrase is a parser at bound `n + 1` that is given the parsers of all phrases at
bound `n`, here called `below`. It may use the productions before it at its own bound, and any
phrase once a token has been consumed.

One token of lookahead decides everything but the start of a closure. A list of statements ends at
the first token that starts no statement, and whoever called for the list decides about that token.
-/

namespace FrontEnd

open FrontEnd.Parser

namespace Production

variable {n : Nat} (below : ∀ p : Nonterminal, Parser n p.Tree)

/-! ## Types and parameters -/

/-- `primitive`, or `( params ) : type`. -/
def typeBase : Parser (n + 1) Ty :=
  branch (fun t => match t.kind with
    | .primitive => some (pure (.prim t.value 0))
    | .openParen => some do
      let params ← below .params
      skip .closeParen
      skip .colon
      return .fn params (← below .type) 0
    | _ => none)
    (unexpected "type")

/-- A type base, or a type between brackets. -/
def type : Parser (n + 1) Ty :=
  branchAt .openBracket (fun _ => do
    let entry ← below .type
    skip .closeBracket
    return entry.withDepth (entry.depth + 1))
    (typeBase below)

/-- `id : type`, and `<- expr` if there is a default. -/
def param : Parser (n + 1) Param :=
  after .identifier fun id => do
    skip .colon
    let type ← below .type
    if ← isAt .assign then
      skip .assign
      return ⟨id.value, type, some (← below .expr)⟩
    else
      return ⟨id.value, type, none⟩

/-- Parameters with commas between them. -/
def paramList : Parser (n + 1) (List Param) := do
  let first ← param below
  branchAt .comma (fun _ => return first :: (← below .paramList)) (return [first])

/-- The parameters up to a closing parenthesis, which is not consumed. Repeated names are kept. -/
def params : Parser (n + 1) (List Param) := upTo .closeParen (paramList below)

/-! ## Calls -/

/-- `id : expr`. -/
def arg : Parser (n + 1) Arg :=
  after .identifier fun id => do
    skip .colon
    return ⟨id.value, ← below .expr⟩

/-- Arguments with commas between them. -/
def argList : Parser (n + 1) (List Arg) := do
  let first ← arg below
  branchAt .comma (fun _ => return first :: (← below .argList)) (return [first])

/-- `( args )`. -/
def arguments : Parser (n + 1) (List Arg) :=
  after .openParen fun _ => do
    let args ← upTo .closeParen (below .argList)
    skip .closeParen
    return args

/-! ## Arithmetic -/

/-- Indices in brackets, as many as follow. -/
def indices : Parser (n + 1) (List Expr) :=
  branchAt .openBracket (fun _ => do
    let index ← below .expr
    skip .closeBracket
    return index :: (← below .indices))
    (return [])

/-- The factor that starts with a name: a call if a parenthesis follows, or else a variable. -/
def named (id : Token) : Parser n Factor := do
  if ← isAt .openParen then return .call id.value (← below .arguments)
  else return .var id.value (← below .indices)

/-- A variable or a call. -/
def idFactor : Parser (n + 1) Factor := after .identifier (named below)

/-- A literal, if its token can be read. -/
def literal (t : Token) (value : Option Factor) : Parser n Factor :=
  match value with
  | some factor => pure factor
  | none => throw (.placed (.invalidNumber t.value) t.position)

/-- A variable, a call, a literal, or `( expr )`. -/
def factor : Parser (n + 1) Factor :=
  branch (fun t => match t.kind with
    | .identifier => some (named below t)
    | .number => some (literal t ((readInt64? t.value).map .int))
    | .float => some (literal t ((readBinary64? t.value).map .float))
    | .openParen => some do
      let inner ← below .expr
      skip .closeParen
      return .paren inner
    | _ => none)
    (unexpected "factor")

/-- `factor`, or `factor mulop term`. -/
def term : Parser (n + 1) Term := do
  let head ← factor below
  branchAt .mulOp (fun op => return .chain head op.value (← below .term)) (return .single head)

/-- `term`, or `term addop addExpr`. -/
def addExpr : Parser (n + 1) AddExpr := do
  let head ← term below
  branchAt .addOp (fun op => return .chain head op.value (← below .addExpr)) (return .single head)

/-! ## Expressions -/

/-- Parses a condition and insists on a comparison, blaming `keyword` for a plain value. -/
def comparison (keyword : String) : Parser n Condition := do
  let start ← cursor
  match ← below .condition with
  | .cond condition => return condition
  | _ => throw (.placed (.expectedCondition keyword) start.position)

/-- `addExpr`, or `addExpr relop addExpr` and, if more is joined to it, `boolop` and a further
comparison. -/
def condition : Parser (n + 1) Expr := do
  let left ← addExpr below
  branchAt .relOp (fun relop => do
    let right ← below .addExpr
    if ← isAt .boolOp then
      let boolop ← expect .boolOp
      return .cond (.chain left relop.value right boolop.value (← comparison below boolop.value))
    else
      return .cond (.single left relop.value right))
    (return .add left)

/-- `[ expr, … ]`. -/
def array : Parser (n + 1) Expr :=
  after .openBracket fun _ => do
    let entries ← upTo .closeBracket (below .exprList)
    skip .closeBracket
    return .array entries

/-- `( params ) : type <- { stmts }`. -/
def closure : Parser (n + 1) Expr :=
  after .openParen fun _ => do
    let params ← below .params
    skip .closeParen
    skip .colon
    let result ← below .type
    skip .assign
    skip .openCurly
    let body ← below .stmts
    skip .closeCurly
    return .closure params result body

/-- An array, a closure or a condition. -/
def expr : Parser (n + 1) Expr := do
  let start ← cursor
  if start.isAt .openBracket then array below
  else if start.opensClosure then closure below
  else condition below

/-- Expressions with commas between them. -/
def exprList : Parser (n + 1) (List Expr) := do
  let first ← expr below
  branchAt .comma (fun _ => return first :: (← below .exprList)) (return [first])

/-! ## Statements

What follows the first token of each statement. -/

/-- `condition then stmts fi`, or with `else stmts` before the `fi`. -/
def ifRest : Parser n Stmt := do
  let condition ← comparison below TokenKind.kwIf.category
  skip .kwThen
  let body ← below .stmts
  if ← isAt .kwElse then
    skip .kwElse
    let otherwise ← below .stmts
    skip .kwFi
    return .ifElse condition body otherwise
  else
    skip .kwFi
    return .ifThen condition body

/-- `condition do stmts done`. -/
def whileRest : Parser n Stmt := do
  let condition ← comparison below TokenKind.kwWhile.category
  skip .kwDo
  let body ← below .stmts
  skip .kwDone
  return .loop condition body

/-- `<- expr ;` for an assignment, or else `arguments ;` for a call. -/
def idRest (id : Token) : Parser n Stmt := do
  if ← isAt .assign then
    skip .assign
    let value ← below .expr
    skip .semicolon
    return .assign id.value value
  else
    let args ← below .arguments
    skip .semicolon
    return .call id.value args

/-- `expr ;`. -/
def returnRest : Parser n Stmt := do
  let value ← below .expr
  skip .semicolon
  return .ret value

/-- `id : type <- expr ;`. -/
def letRest : Parser n Stmt := do
  let id ← expect .identifier
  skip .colon
  let type ← below .type
  skip .assign
  let value ← below .expr
  skip .semicolon
  return .letVar id.value type value

/-- `id ( params ) : type <- begin stmts end`. -/
def funRest : Parser n Stmt := do
  let id ← expect .identifier
  skip .openParen
  let params ← below .params
  skip .closeParen
  skip .colon
  let result ← below .type
  skip .assign
  skip .kwBegin
  let body ← below .stmts
  skip .kwEnd
  return .letFun id.value params result body

/-- The rest of the statement that a token starts, if it starts one. -/
def stmtRest (t : Token) : Option (Parser n Stmt) :=
  match t.kind with
  | .kwIf => some (ifRest below)
  | .kwWhile => some (whileRest below)
  | .kwReturn => some (returnRest below)
  | .kwLet => some (letRest below)
  | .kwFun => some (funRest below)
  | .identifier => some (idRest below t)
  | _ => none

/-- A statement, or nothing if the lookahead starts none. -/
def stmt : Parser (n + 1) (Option Stmt) :=
  branch (fun t => (stmtRest below t).map fun rest => return some (← rest)) (return none)

/-- Statements, as many as follow. -/
def stmts : Parser (n + 1) (List Stmt) :=
  branch (fun t => (stmtRest below t).map fun rest => return (← rest) :: (← below .stmts))
    (return [])

end Production

end FrontEnd
