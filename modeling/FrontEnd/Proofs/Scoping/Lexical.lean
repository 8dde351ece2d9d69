import FrontEnd.Check.Scope
import FrontEnd.Check.Typing

/-!
# Lexical scoping

The rules of the language as functions of what surrounds a tree. An `Env` is handed down and never
changed: a block or a body is judged in an extended copy, which ends with it, and of a statement
only what it declares reaches the statements behind it in the same block. Nothing is opened, so
nothing has to be left.

- `Expr.typeIn`: the type of an expression in given surroundings, or the first fault.
- `Stmt.declaration?`: what a statement declares for those behind it, if anything.
- `Stmt.checkIn`, `Stmts.checkIn`, `Program.checkLexically`: the first fault, if there is one.

The judgements about types alone are those of `Typing`.
-/

namespace FrontEnd

namespace Scope

/-- The scope with several more declarations, unless one of them is declared already. -/
def declareAll (scope : Scope) : List (String × Ty) → Except Fault Scope
  | [] => return scope
  | (name, type) :: declarations => do
    let extended ← scope.declare name type
    extended.declareAll declarations

theorem ofList_eq (declarations : List (String × Ty)) :
    ofList declarations = declareAll [] declarations := by
  unfold ofList
  generalize ([] : Scope) = scope
  induction declarations generalizing scope with
  | nil => rfl
  | cons declaration declarations ih =>
    rw [List.foldlM_cons, declareAll]
    exact bind_congr fun extended => ih extended

end Scope

/-- What surrounds a tree: the declarations of its block so far, the scopes around the block, and
the result type of the innermost body around it, if it stands in one. -/
structure Env where
  scope : Scope
  outer : List Scope
  result? : Option Ty

/-- A parameter as a declaration. -/
def Param.declaration (p : Param) : String × Ty := (p.name, p.type)

namespace Env

/-- What surrounds a program. -/
def initial : Env := ⟨Scope.builtIns, [], none⟩

/-- All enclosing scopes, innermost first. -/
def scopes (env : Env) : List Scope := env.scope :: env.outer

/-- The innermost declaration of a name. -/
def lookup (env : Env) (name : String) : Except Fault Ty :=
  match env.scopes.findSome? (·.find? name) with
  | some type => .ok type
  | none => .error (.notDeclared name)

/-- The result type of the innermost body. -/
def resultType (env : Env) : Except Fault Ty :=
  match env.result? with
  | some result => .ok result
  | none => .error .returnOutsideFunction

/-- What surrounds the statements of a block. -/
def block (env : Env) : Env := ⟨[], env.scopes, env.result?⟩

/-- What surrounds the statements of a body: a scope with the parameters, and the result type. -/
def body (env : Env) (params : List Param) (result : Ty) : Except Fault Env := do
  let scope ← Scope.ofList (params.map Param.declaration)
  return ⟨scope, env.scopes, some result⟩

/-- A name can be declared unless its block has declared it already. -/
def vacant (env : Env) (name : String) : Except Fault Unit :=
  if (env.scope.find? name).isSome then .error (.alreadyDeclared name) else .ok ()

/-- What surrounds the statements behind a declaration. -/
def extend (env : Env) : Option (String × Ty) → Env
  | none => env
  | some declaration => { env with scope := declaration :: env.scope }

end Env

/-- What a statement declares in its block. -/
def Stmt.declaration? : Stmt → Option (String × Ty)
  | .letVar name type _ => some (name, type)
  | .letFun name params result _ => some (name, .fn params result 0)
  | _ => none

/-- What statements declare in their block, in order. -/
def Stmts.declarations (body : List Stmt) : List (String × Ty) :=
  body.filterMap Stmt.declaration?

theorem Stmts.declarations_cons (s : Stmt) (rest : List Stmt) :
    declarations (s :: rest) = s.declaration?.toList ++ declarations rest := by
  unfold declarations
  rw [List.filterMap_cons]
  cases s.declaration? <;> rfl

mutual

/-- The type of an expression. -/
def Expr.typeIn (env : Env) : Expr → Except Fault Ty
  | .cond condition => condition.typeIn env
  | .add sum => sum.typeIn env
  | .array entries => do
    let types ← Exprs.typesIn env entries
    Typing.array types
  | .closure params result body => do
    Params.checkIn env [] params
    let inner ← env.body params result
    Stmts.checkIn inner body
    return .fn params result 0

/-- The types of several expressions. -/
def Exprs.typesIn (env : Env) : List Expr → Except Fault (List Ty)
  | [] => return []
  | e :: es => do
    let type ← e.typeIn env
    let types ← Exprs.typesIn env es
    return type :: types

/-- Parameters of a closure, where `seen` are the names of those before. -/
def Params.checkIn (env : Env) (seen : List String) : List Param → Except Fault Unit
  | [] => return ()
  | ⟨name, type, default?⟩ :: params => do
    Typing.newParam seen name
    Default.checkIn env type default?
    Params.checkIn env (name :: seen) params

/-- The default of a parameter of a closure, if there is one. -/
def Default.checkIn (env : Env) (type : Ty) : Option Expr → Except Fault Unit
  | none => return ()
  | some value => do
    let received ← value.typeIn env
    Typing.demand type received

/-- The type of a condition. -/
def Condition.typeIn (env : Env) : Condition → Except Fault Ty
  | .single left relop right => do
    let leftType ← left.typeIn env
    let rightType ← right.typeIn env
    Typing.comparable leftType relop rightType
    return .bool
  | .chain left relop right _ next => do
    let leftType ← left.typeIn env
    let rightType ← right.typeIn env
    Typing.comparable leftType relop rightType
    next.typeIn env

/-- The type of a sum. -/
def AddExpr.typeIn (env : Env) : AddExpr → Except Fault Ty
  | .single term => term.typeIn env
  | .chain term _ next => do
    let head ← term.typeIn env
    let tail ← next.typeIn env
    Typing.joinable head tail
    return head

/-- The type of a term. -/
def Term.typeIn (env : Env) : Term → Except Fault Ty
  | .single factor => factor.typeIn env
  | .chain factor _ next => do
    let head ← factor.typeIn env
    let tail ← next.typeIn env
    Typing.joinable head tail
    return head

/-- The type of a factor. -/
def Factor.typeIn (env : Env) : Factor → Except Fault Ty
  | .var name indices => do
    let declared ← env.lookup name
    Typing.indexed name declared indices.length
  | .call callee args => do
    let declared ← env.lookup callee
    let (params, result) ← Typing.signature callee declared args
    Args.checkIn env params args
    return result
  | .int _ => return .int
  | .float _ => return .float
  | .paren inner => inner.typeIn env

/-- Arguments against the parameters they name. -/
def Args.checkIn (env : Env) (params : List Param) : List Arg → Except Fault Unit
  | [] => return ()
  | ⟨name, value⟩ :: args => do
    let received ← value.typeIn env
    Typing.argument params name received
    Args.checkIn env params args

/-- Whether a statement has no fault. A function is not visible in its own body, nor a variable in
its own initial value. -/
def Stmt.checkIn (env : Env) : Stmt → Except Fault Unit
  | .ifThen condition body => do
    let _ ← condition.typeIn env
    Stmts.checkIn env.block body
  | .ifElse condition body otherwise => do
    let _ ← condition.typeIn env
    Stmts.checkIn env.block body
    Stmts.checkIn env.block otherwise
  | .loop condition body => do
    let _ ← condition.typeIn env
    Stmts.checkIn env.block body
  | .assign name value => do
    let expected ← env.lookup name
    let received ← value.typeIn env
    Typing.demand expected received
  | .ret value => do
    let expected ← env.resultType
    let received ← value.typeIn env
    Typing.demand expected received
  | .letVar name type value => do
    let received ← value.typeIn env
    Typing.demand type received
    env.vacant name
  | .letFun name params result body => do
    let inner ← env.body params result
    Stmts.checkIn inner body
    env.vacant name
  | .call callee args => do
    let declared ← env.lookup callee
    let (params, _) ← Typing.signature callee declared args
    Args.checkIn env params args

/-- Statements in turn, each in front of those that see what it declares. -/
def Stmts.checkIn (env : Env) : List Stmt → Except Fault Unit
  | [] => return ()
  | s :: rest => do
    s.checkIn env
    Stmts.checkIn (env.extend s.declaration?) rest

end

/-- A program in front of the built-in functions. -/
def Program.checkLexically (program : Program) : Except Fault Unit :=
  Stmts.checkIn .initial program.body

end FrontEnd
