import FrontEnd.Check.Scope

/-!
# Checks

A `Check` reads and changes a context and ends with a value or with a fault; at a fault the context
stays as it was when the fault arose. The elementary checks look names up, declare them, and open
and leave scopes and bodies.
-/

namespace FrontEnd

/-- A computation on a context that a fault may end. -/
abbrev Check := EStateM Fault Context

namespace Check

/-- A rule that needs no context. -/
def judge {α : Type} (rule : Except Fault α) : Check α := fun c =>
  match rule with
  | .ok a => .ok a c
  | .error fault => .error fault c

@[simp] theorem judge_ok {α : Type} (a : α) : judge (.ok a) = pure a := rfl

@[simp] theorem judge_error {α : Type} (fault : Fault) :
    (judge (.error fault) : Check α) = throw fault := rfl

/-- The type of the innermost declaration of a name. -/
def lookup (name : String) : Check Ty := fun c =>
  match c.find? name with
  | some type => .ok type c
  | none => .error (.notDeclared name) c

/-- Declares a name in the innermost scope. -/
def declare (name : String) (type : Ty) : Check Unit := fun c =>
  match c.scope.declare name type with
  | .ok scope => .ok () { c with scope := scope }
  | .error fault => .error fault c

/-- Declares parameters in the innermost scope. -/
def declareParams : List Param → Check Unit
  | [] => return ()
  | p :: ps => do
    declare p.name p.type
    declareParams ps

/-- Opens a scope. -/
def openScope : Check Unit := fun c =>
  .ok () { c with scope := [], outer := c.scope :: c.outer }

/-- Leaves the innermost scope, which must not be the global one. -/
def closeScope : Check Unit := fun c =>
  match c.outer with
  | [] => .error .scopeUnderflow c
  | scope :: outer => .ok () { c with scope := scope, outer := outer }

/-- Enters a body with a result type. -/
def enterBody (result : Ty) : Check Unit := fun c =>
  .ok () { c with results := result :: c.results }

/-- Leaves the innermost body, if there is one. -/
def leaveBody : Check Unit := fun c => .ok () { c with results := c.results.tail }

/-- The result type of the innermost body. -/
def resultType : Check Ty := fun c =>
  match c.results with
  | [] => .error .returnOutsideFunction c
  | result :: _ => .ok result c

/-- Runs a check in a scope of its own. -/
def inBlock (body : Check Unit) : Check Unit := do
  openScope
  body
  closeScope

/-- Runs a check as the body of a function: under its result type, in a scope of its own that
declares its parameters. -/
def inBody (params : List Param) (result : Ty) (body : Check Unit) : Check Unit := do
  enterBody result
  openScope
  declareParams params
  body
  closeScope
  leaveBody

end Check

end FrontEnd
