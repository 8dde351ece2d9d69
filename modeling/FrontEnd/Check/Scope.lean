import FrontEnd.Fault.Basic
import FrontEnd.Syntax.Type

/-!
# Scopes and contexts

A `Scope` holds the declarations of one block. A `Context` is what a check knows at one point of a
program: the scope it is in, the scopes around it, and the result types of the bodies around it. The
outermost scope is the global one; it has no scope around it and is never left.

Names are looked up from the innermost scope outwards, so an inner declaration hides an outer one,
and a name can be declared once in each scope.
-/

namespace FrontEnd

/-- The declarations of one block, latest first. -/
abbrev Scope := List (String × Ty)

namespace Scope

/-- The type with which a name is declared in the scope. -/
def find? (scope : Scope) (name : String) : Option Ty := scope.lookup name

/-- The scope with one more declaration, unless the name is declared already. -/
def declare (scope : Scope) (name : String) (type : Ty) : Except Fault Scope :=
  if (scope.find? name).isSome then .error (.alreadyDeclared name) else .ok ((name, type) :: scope)

@[simp] theorem find?_nil (name : String) : find? [] name = none := rfl

theorem find?_cons (declared : String) (type : Ty) (scope : Scope) (name : String) :
    find? ((declared, type) :: scope) name =
      if name = declared then some type else scope.find? name := by
  unfold find?
  rw [List.lookup_cons]
  by_cases h : name = declared
  · simp [h]
  · simp [h, beq_eq_false_iff_ne.2 h]

theorem declare_eq_ok_iff {scope extended : Scope} {name : String} {type : Ty} :
    scope.declare name type = .ok extended ↔
      scope.find? name = none ∧ extended = (name, type) :: scope := by
  unfold declare
  cases scope.find? name <;> simp [eq_comm]

/-- The scope that declares each name of a list in turn. -/
def ofList (declarations : List (String × Ty)) : Except Fault Scope :=
  declarations.foldlM (fun scope (name, type) => scope.declare name type) []

/-- The scope of the functions that every program may call. -/
def builtIns : Scope :=
  [("print", .fn [⟨"x", .any 0, none⟩] .noValue 0),
    ("readInt", .fn [] .int 0),
    ("readFloat", .fn [] .float 0),
    ("readBool", .fn [] .bool 0)]

end Scope

/-- The open scopes and the result types of the enclosing bodies, innermost first. -/
structure Context where
  scope : Scope
  outer : List Scope
  results : List Ty

namespace Context

/-- The context on the outermost level, with the given global scope. -/
def ofGlobal (scope : Scope) : Context := ⟨scope, [], []⟩

/-- The context in which a program starts. -/
def initial : Context := ofGlobal Scope.builtIns

/-- All open scopes, innermost first. -/
def scopes (c : Context) : List Scope := c.scope :: c.outer

/-- The number of open scopes. -/
def depth (c : Context) : Nat := c.scopes.length

/-- The innermost declaration of a name. -/
def find? (c : Context) (name : String) : Option Ty := c.scopes.findSome? (·.find? name)

end Context

end FrontEnd
