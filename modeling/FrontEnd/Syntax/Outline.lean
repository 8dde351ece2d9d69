import FrontEnd.Number.Shortest
import FrontEnd.Syntax.Tree
import FrontEnd.Text.Characters

/-!
# Outlines of trees

An `Outline` is a tree of labelled groups. `Outline.text` lays it out with one member per line, each
group indented by four places more than the one around it. `Program.outline` shows every node of a
program under its name.
-/

namespace FrontEnd

/-- A tree of labelled groups. -/
inductive Outline where
  /-- A text on one line. -/
  | leaf (text : String)
  /-- A group between an opening and a closing mark, with a label before it. -/
  | group (label opening closing : String) (members : List Outline)
  /-- A member with a name. -/
  | named (name : String) (value : Outline)

namespace Outline

mutual

/-- The layout of an outline that starts in a line indented by `indent` places. -/
def layout (indent : Nat) : Outline → String
  | leaf text => text
  | named name value => name ++ ": " ++ layout indent value
  | group label opening closing [] => label ++ opening ++ closing
  | group label opening closing (m :: ms) =>
    label ++ opening ++ "\n" ++ layoutMembers (indent + 4) (m :: ms) ++
      "".pushn ' ' indent ++ closing

/-- The layout of the members of a group, each on lines of its own. -/
def layoutMembers (indent : Nat) : List Outline → String
  | [] => ""
  | m :: ms =>
    "".pushn ' ' indent ++ layout indent m ++ ",\n" ++ layoutMembers indent ms

end

/-- The layout of a whole outline. -/
def text (o : Outline) : String := layout 0 o

/-- A node with named members. -/
def record (label : String) (fields : List (String × Outline)) : Outline :=
  group (label ++ " ") "\x7b" "\x7d" (fields.map fun (name, value) => named name value)

/-- A node with members told by their place; without a label, a tuple. -/
def tuple (label : String) (members : List Outline) : Outline := group label "(" ")" members

/-- A list. -/
def list (members : List Outline) : Outline := group "" "[" "]" members

/-- A string between quotes. -/
def string (s : String) : Outline := leaf (quoted s)

/-- A member that is there. -/
def present (value : Outline) : Outline := tuple "Some" [value]

/-- A member that is missing. -/
def absent : Outline := leaf "None"

end Outline

open Outline

/-! ## Nodes

The outline of each kind of node: its name around its parts. -/

/-- The rest of a chain after its operator. -/
def continuation (operator : String) (next : Outline) : Outline :=
  present (tuple "" [string operator, next])

mutual

/-- A type with its name, its array levels and the parts of a function type. -/
def Ty.outline : Ty → Outline
  | .prim name depth =>
    record "TypeSpec"
      [("base", tuple "Primitive" [string name]), ("array_depth", leaf (toString depth))]
  | .fn params result depth =>
    record "TypeSpec"
      [("base", tuple "Function"
        [record "FunctionType"
          [("parameters", list (Params.outlines params)), ("return_type", result.outline)]]),
      ("array_depth", leaf (toString depth))]

/-- A parameter with its default, if it has one. -/
def Param.outline : Param → Outline
  | ⟨name, type, none⟩ =>
    record "Param" [("id", string name), ("ty", type.outline), ("default", absent)]
  | ⟨name, type, some value⟩ =>
    record "Param" [("id", string name), ("ty", type.outline), ("default", present value.outline)]

def Params.outlines : List Param → List Outline
  | [] => []
  | p :: ps => p.outline :: Params.outlines ps

/-- An expression under the name of its form. -/
def Expr.outline : Expr → Outline
  | .cond condition => tuple "Condition" [condition.outline]
  | .add sum => tuple "Add" [sum.outline]
  | .array entries =>
    tuple "Array" [record "ArrayExpr" [("entries", list (Exprs.outlines entries))]]
  | .closure params result body =>
    tuple "Closure"
      [record "ClosureExpr"
        [("parameters", list (Params.outlines params)), ("return_type", result.outline),
          ("body", list (Stmts.outlines body))]]

def Exprs.outlines : List Expr → List Outline
  | [] => []
  | e :: es => e.outline :: Exprs.outlines es

/-- A condition with the comparison behind it, if there is one. -/
def Condition.outline : Condition → Outline
  | .single left relop right =>
    record "Condition"
      [("left", left.outline), ("relop", string relop), ("right", right.outline), ("next", absent)]
  | .chain left relop right boolop next =>
    record "Condition"
      [("left", left.outline), ("relop", string relop), ("right", right.outline),
        ("next", continuation boolop next.outline)]

def AddExpr.outline : AddExpr → Outline
  | .single term => record "AddExpr" [("term", term.outline), ("next", absent)]
  | .chain term addop next =>
    record "AddExpr" [("term", term.outline), ("next", continuation addop next.outline)]

def Term.outline : Term → Outline
  | .single factor => record "Term" [("factor", factor.outline), ("next", absent)]
  | .chain factor mulop next =>
    record "Term" [("factor", factor.outline), ("next", continuation mulop next.outline)]

/-- A factor under the name of its form. -/
def Factor.outline : Factor → Outline
  | .var name indices =>
    tuple "Var"
      [record "VarExpr" [("id", string name), ("indices", list (Exprs.outlines indices))]]
  | .call callee args =>
    tuple "Call"
      [record "CallExpr" [("callee", string callee), ("arguments", list (Args.outlines args))]]
  | .int value => tuple "Int" [leaf (toString value)]
  | .float value => tuple "Float" [leaf value.text]
  | .paren inner => tuple "Paren" [inner.outline]

def Args.outlines : List Arg → List Outline
  | [] => []
  | ⟨name, value⟩ :: args =>
    record "Arg" [("id", string name), ("value", value.outline)] :: Args.outlines args

/-- A statement under the name of its form. -/
def Stmt.outline : Stmt → Outline
  | .ifThen condition body =>
    tuple "If"
      [record "IfStmt"
        [("condition", condition.outline), ("then_body", list (Stmts.outlines body)),
          ("else_body", absent)]]
  | .ifElse condition body otherwise =>
    tuple "If"
      [record "IfStmt"
        [("condition", condition.outline), ("then_body", list (Stmts.outlines body)),
          ("else_body", present (list (Stmts.outlines otherwise)))]]
  | .loop condition body =>
    tuple "While"
      [record "WhileStmt"
        [("condition", condition.outline), ("body", list (Stmts.outlines body))]]
  | .assign name value =>
    tuple "Assign"
      [record "AssignStmt" [("identifier", string name), ("value", value.outline)]]
  | .ret value => tuple "Return" [record "ReturnStmt" [("value", value.outline)]]
  | .letVar name type value =>
    tuple "VarDecl"
      [record "VarDeclStmt"
        [("identifier", string name), ("explicit_type", type.outline),
          ("assigned_value", value.outline)]]
  | .letFun name params result body =>
    tuple "FnDecl"
      [record "FnDeclStmt"
        [("identifier", string name), ("parameters", list (Params.outlines params)),
          ("return_type", result.outline), ("body", list (Stmts.outlines body))]]
  | .call callee args =>
    tuple "Call"
      [record "CallExpr" [("callee", string callee), ("arguments", list (Args.outlines args))]]

def Stmts.outlines : List Stmt → List Outline
  | [] => []
  | s :: rest => s.outline :: Stmts.outlines rest

end

/-- A whole program, node by node. -/
def Program.outline (program : Program) : Outline :=
  record "Start" [("body", list (Stmts.outlines program.body))]

end FrontEnd
