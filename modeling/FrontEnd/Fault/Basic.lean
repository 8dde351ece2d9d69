import FrontEnd.Token.Basic

/-!
# Faults

A `Fault` is one reason for which a program is rejected, with the names, texts and numbers that
describe it; types appear in it as they are shown to the user. `Fault.kind` sorts the reasons by the
rule that was broken. A `Diagnostic` is a fault and the place where it was noticed; faults of names,
types and arguments concern trees, which carry no places.
-/

namespace FrontEnd

/-- A reason to reject a program. -/
inductive Fault where
  /-- A character that starts no token. -/
  | unrecognisedToken (token : String)
  /-- A token where another was due. -/
  | unexpectedToken (token expected : String)
  /-- The end of the input where something was due. -/
  | unexpectedEnd (expected : String)
  /-- A token after the last statement that starts no statement. -/
  | trailingTokens (token : String)
  /-- A plain value where `keyword` needs a comparison. -/
  | expectedCondition (keyword : String)
  /-- A numeral that stands for no number of its kind. -/
  | invalidNumber (token : String)
  /-- A name declared twice in one scope. -/
  | alreadyDeclared (name : String)
  /-- A name without a declaration in any open scope. -/
  | notDeclared (name : String)
  /-- A parameter name that a closure repeats. -/
  | duplicateParameter (parameter : String)
  /-- An attempt to leave the global scope. -/
  | scopeUnderflow
  /-- A value of another type than the one due. -/
  | typeMismatch (expected received : String)
  /-- An argument of another type than its parameter. -/
  | argumentMismatch (argument expected received : String)
  /-- An operand that no operator takes. -/
  | notArithmetic (type : String)
  /-- Operands that have no order. -/
  | notComparable (relop type : String)
  /-- Array entries of different types. -/
  | mixedEntries (first other : String)
  /-- More indices than array levels. -/
  | tooManyIndices (name : String) (depth indices : Nat)
  /-- A call of something that is no function. -/
  | notCallable (callee type : String)
  /-- A return statement in no function. -/
  | returnOutsideFunction
  /-- An argument that names no parameter. -/
  | unexpectedArgument (callee argument : String)
  /-- A parameter with neither argument nor default. -/
  | missingArgument (callee parameter : String)
deriving DecidableEq, Repr

/-- The rules that a program can break. -/
inductive FaultKind where
  | lexical
  | grammatical
  | naming
  | typing
  | arity
deriving DecidableEq, Repr

namespace Fault

/-- Which rule was broken. -/
def kind : Fault → FaultKind
  | unrecognisedToken .. => .lexical
  | unexpectedToken .. | unexpectedEnd .. | trailingTokens .. | expectedCondition ..
  | invalidNumber .. => .grammatical
  | alreadyDeclared .. | notDeclared .. | duplicateParameter .. | scopeUnderflow => .naming
  | typeMismatch .. | argumentMismatch .. | notArithmetic .. | notComparable .. | mixedEntries ..
  | tooManyIndices .. | notCallable .. | returnOutsideFunction => .typing
  | unexpectedArgument .. | missingArgument .. => .arity

/-- The name under which a report mentions the fault. -/
def name : Fault → String
  | unrecognisedToken .. => "UnrecognisedToken"
  | unexpectedToken .. => "UnexpectedToken"
  | unexpectedEnd .. => "UnexpectedEndOfInput"
  | trailingTokens .. => "TrailingTokens"
  | expectedCondition .. => "ExpectedCondition"
  | invalidNumber .. => "NumberParseError"
  | alreadyDeclared .. => "VariableAlreadyDeclared"
  | notDeclared .. => "VariableNotDeclared"
  | duplicateParameter .. => "DuplicateParameter"
  | scopeUnderflow => "ScopeUnderflow"
  | typeMismatch .. => "TypeMatchError"
  | argumentMismatch .. => "ArgumentTypeMatchError"
  | notArithmetic .. => "NotArithmetic"
  | notComparable .. => "NotComparable"
  | mixedEntries .. => "MixedArrayEntries"
  | tooManyIndices .. => "TooManyIndices"
  | notCallable .. => "NotCallable"
  | returnOutsideFunction => "ReturnOutsideFunction"
  | unexpectedArgument .. => "UnexpectedArgument"
  | missingArgument .. => "MissingArgument"

end Fault

/-- A fault and where it was noticed, if that is a place in the source. -/
structure Diagnostic where
  fault : Fault
  position : Option Position
deriving DecidableEq, Repr

namespace Diagnostic

/-- A fault at a place. -/
def placed (fault : Fault) (position : Position) : Diagnostic := ⟨fault, some position⟩

/-- A fault of a tree, without a place. -/
def semantic (fault : Fault) : Diagnostic := ⟨fault, none⟩

end Diagnostic

end FrontEnd
