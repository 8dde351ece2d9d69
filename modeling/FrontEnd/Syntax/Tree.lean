import FrontEnd.Number.Binary64

/-!
# Program trees

The trees of the language: types, expressions and statements. They are defined together, since a
function type lists parameters, a parameter may have a default expression, and a closure is an
expression with statements inside.

An expression has one level of the tree for each level of precedence: a condition compares two sums,
an `AddExpr` chains terms and a `Term` chains factors, and every chain is nested to the right.
Operators are kept as they were written.
-/

namespace FrontEnd

mutual

/-- A type under `depth` array levels: a primitive type by its name, or a function type. -/
inductive Ty where
  | prim (name : String) (depth : Nat)
  | fn (params : List Param) (result : Ty) (depth : Nat)

/-- A named and typed parameter; a call may leave it out if it has a default. -/
structure Param where
  name : String
  type : Ty
  default? : Option Expr

inductive Expr where
  | cond (condition : Condition)
  | add (sum : AddExpr)
  | array (entries : List Expr)
  | closure (params : List Param) (result : Ty) (body : List Stmt)

/-- A comparison, or a comparison joined to a further condition. -/
inductive Condition where
  | single (left : AddExpr) (relop : String) (right : AddExpr)
  | chain (left : AddExpr) (relop : String) (right : AddExpr) (boolop : String) (next : Condition)

/-- A term, or a term added to further terms. -/
inductive AddExpr where
  | single (term : Term)
  | chain (term : Term) (addop : String) (next : AddExpr)

/-- A factor, or a factor multiplied by further factors. -/
inductive Term where
  | single (factor : Factor)
  | chain (factor : Factor) (mulop : String) (next : Term)

/-- An operand: a variable with one index per bracket pair, a call, a literal, or an expression in
parentheses. -/
inductive Factor where
  | var (name : String) (indices : List Expr)
  | call (callee : String) (args : List Arg)
  | int (value : Int)
  | float (value : Binary64)
  | paren (inner : Expr)

/-- A value for the parameter of a name. -/
structure Arg where
  name : String
  value : Expr

inductive Stmt where
  | ifThen (condition : Condition) (body : List Stmt)
  | ifElse (condition : Condition) (body otherwise : List Stmt)
  | loop (condition : Condition) (body : List Stmt)
  | assign (name : String) (value : Expr)
  | ret (value : Expr)
  | letVar (name : String) (type : Ty) (value : Expr)
  | letFun (name : String) (params : List Param) (result : Ty) (body : List Stmt)
  | call (callee : String) (args : List Arg)

end

/-- A whole program: its statements on the outermost level. -/
structure Program where
  body : List Stmt

instance : Inhabited Ty := ⟨.prim "none" 0⟩

/-- A factor alone as an expression. -/
def Factor.toExpr (factor : Factor) : Expr := .add (.single (.single factor))

end FrontEnd
