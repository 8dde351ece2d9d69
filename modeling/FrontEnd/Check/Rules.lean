import FrontEnd.Check.Basic
import FrontEnd.Check.Typing

/-!
# The rules of the language

Each kind of tree has its check: expressions, conditions, sums, terms and factors answer their type,
and statements change the context by what they declare. Checks run from left to right and end at the
first fault.

Every block has a scope of its own, and every function or closure body has one together with its
parameters. A function is declared after its body has been checked, so a body does not see its own
function. Of the indices of a variable only the number counts, and defaults of declared functions
are taken as they are.
-/

namespace FrontEnd

open Check

mutual

/-- The type of an expression. A closure may not repeat a parameter name, and its defaults are
checked before its body is entered. -/
def Expr.check : Expr → Check Ty
  | .cond condition => condition.check
  | .add sum => sum.check
  | .array entries => do
    let types ← Exprs.check entries
    judge (Typing.array types)
  | .closure params result body => do
    Params.check [] params
    inBody params result (Stmts.check body)
    return .fn params result 0

/-- The types of several expressions. -/
def Exprs.check : List Expr → Check (List Ty)
  | [] => return []
  | e :: es => do
    let type ← e.check
    let types ← Exprs.check es
    return type :: types

/-- Checks parameters of a closure, where `seen` are the names of those before. -/
def Params.check (seen : List String) : List Param → Check Unit
  | [] => return ()
  | ⟨name, type, default?⟩ :: params => do
    judge (Typing.newParam seen name)
    Default.check type default?
    Params.check (name :: seen) params

/-- Checks the default of a parameter against its type, if there is one. -/
def Default.check (type : Ty) : Option Expr → Check Unit
  | none => return ()
  | some value => do
    let received ← value.check
    judge (Typing.demand type received)

/-- The type of a condition, which is always the truth values. -/
def Condition.check : Condition → Check Ty
  | .single left relop right => do
    let leftType ← left.check
    let rightType ← right.check
    judge (Typing.comparable leftType relop rightType)
    return .bool
  | .chain left relop right _ next => do
    let leftType ← left.check
    let rightType ← right.check
    judge (Typing.comparable leftType relop rightType)
    next.check

/-- The type of a sum: that of its terms, which have to agree. -/
def AddExpr.check : AddExpr → Check Ty
  | .single term => term.check
  | .chain term _ next => do
    let head ← term.check
    let tail ← next.check
    judge (Typing.joinable head tail)
    return head

/-- The type of a term: that of its factors, which have to agree. -/
def Term.check : Term → Check Ty
  | .single factor => factor.check
  | .chain factor _ next => do
    let head ← factor.check
    let tail ← next.check
    judge (Typing.joinable head tail)
    return head

/-- The type of a factor. -/
def Factor.check : Factor → Check Ty
  | .var name indices => do
    let declared ← lookup name
    judge (Typing.indexed name declared indices.length)
  | .call callee args => do
    let declared ← lookup callee
    let (params, result) ← judge (Typing.signature callee declared args)
    Args.check params args
    return result
  | .int _ => return .int
  | .float _ => return .float
  | .paren inner => inner.check

/-- Checks arguments against the parameters they name. -/
def Args.check (params : List Param) : List Arg → Check Unit
  | [] => return ()
  | ⟨name, value⟩ :: args => do
    let received ← value.check
    judge (Typing.argument params name received)
    Args.check params args

/-- Checks a statement. -/
def Stmt.check : Stmt → Check Unit
  | .ifThen condition body => do
    let _ ← condition.check
    inBlock (Stmts.check body)
  | .ifElse condition body otherwise => do
    let _ ← condition.check
    inBlock (Stmts.check body)
    inBlock (Stmts.check otherwise)
  | .loop condition body => do
    let _ ← condition.check
    inBlock (Stmts.check body)
  | .assign name value => do
    let expected ← lookup name
    let received ← value.check
    judge (Typing.demand expected received)
  | .ret value => do
    let expected ← resultType
    let received ← value.check
    judge (Typing.demand expected received)
  | .letVar name type value => do
    let received ← value.check
    judge (Typing.demand type received)
    declare name type
  | .letFun name params result body => do
    inBody params result (Stmts.check body)
    declare name (.fn params result 0)
  | .call callee args => do
    let declared ← lookup callee
    let (params, _) ← judge (Typing.signature callee declared args)
    Args.check params args

/-- Checks statements in turn. -/
def Stmts.check : List Stmt → Check Unit
  | [] => return ()
  | s :: rest => do
    s.check
    Stmts.check rest

end

/-- Checks a whole program from the initial context and answers the context at its end. -/
def Program.check (program : Program) : Except Fault Context :=
  match Stmts.check program.body .initial with
  | .ok _ context => .ok context
  | .error fault _ => .error fault

end FrontEnd
