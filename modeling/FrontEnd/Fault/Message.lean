import FrontEnd.Fault.Basic
import FrontEnd.Text.Line

/-!
# The wording of faults

`Fault.message` says in one line what is wrong and `Fault.tip?` what to look at; most texts from the
program are quoted in messages and bare in tips. `Diagnostic.report` is the text shown to the user:
the name of the fault with its tip, the place, and an excerpt of the line at that place.
-/

namespace FrontEnd

namespace Fault

/-- What is wrong. -/
def message : Fault → String
  | unrecognisedToken token => s!"unrecognised token: {quoted token}"
  | unexpectedToken token expected =>
    s!"unexpected token {quoted token}, expected {quoted expected}"
  | unexpectedEnd expected => s!"unexpected end of input, expected {quoted expected}"
  | trailingTokens token => s!"unparsed input starting at {quoted token}"
  | expectedCondition keyword => s!"{quoted keyword} expects a condition"
  | invalidNumber token => s!"error parsing number: {quoted token}"
  | alreadyDeclared var => s!"variable {quoted var} already declared"
  | notDeclared var => s!"variable {quoted var} not declared"
  | duplicateParameter parameter => s!"parameter {quoted parameter} declared more than once"
  | scopeUnderflow => "attempted to pop the global scope"
  | typeMismatch expected received =>
    s!"types do not match: expected {quoted expected}, received {quoted received}"
  | argumentMismatch argument expected received =>
    s!"argument {quoted argument} does not match: expected {quoted expected}, received " ++
      quoted received
  | notArithmetic type => s!"type {type} is not arithmetic"
  | notComparable relop type => s!"{quoted relop} cannot compare values of type {type}"
  | mixedEntries first other => s!"array entries have different types: {first} and {other}"
  | tooManyIndices var depth indices =>
    s!"variable {quoted var} indexed {indices} times but has depth {depth}"
  | notCallable callee type => s!"{quoted callee} of type {type} is not callable"
  | returnOutsideFunction => "return statement outside of function"
  | unexpectedArgument callee argument => s!"{quoted callee} has no parameter {quoted argument}"
  | missingArgument callee parameter =>
    s!"call to {quoted callee} is missing argument {quoted parameter}"

/-- What to look at, for the faults that leave a choice. -/
def tip? : Fault → Option String
  | unrecognisedToken _ => none
  | unexpectedToken token expected => s!"Unexpected token: `{token}`, expected `{expected}`"
  | unexpectedEnd expected =>
    s!"Input ended while expecting `{expected}`, did you miss a semicolon?"
  | trailingTokens token => s!"Could not parse a statement starting at `{token}`"
  | expectedCondition keyword => s!"`{keyword}` needs a comparison such as `x < 10`"
  | invalidNumber token => s!"Invalid number: `{token}`, is it above the integer limit?"
  | alreadyDeclared var => s!"`{var}` already declared in this scope"
  | notDeclared var => s!"`{var}` not declared"
  | duplicateParameter parameter => s!"Parameter `{parameter}` appears more than once"
  | scopeUnderflow => none
  | typeMismatch expected received => s!"Expected type `{expected}`, received `{received}`"
  | argumentMismatch argument expected received =>
    s!"Expected argument `{argument}` of type `{expected}`, received `{received}`"
  | notArithmetic type => s!"Operators need `int`, `float` or `bool` operands, found `{type}`"
  | notComparable relop type => s!"`{relop}` cannot order values of type `{type}`"
  | mixedEntries first other =>
    s!"Array entries must share a type, found `{first}` and `{other}`"
  | tooManyIndices var depth indices =>
    s!"`{var}` has {depth} array levels but is indexed {indices} times"
  | notCallable callee type => s!"`{callee}` has type `{type}` and cannot be called"
  | returnOutsideFunction => some "`return` is only allowed inside a function body"
  | unexpectedArgument callee argument => s!"`{callee}` has no parameter named `{argument}`"
  | missingArgument callee parameter =>
    s!"Call to `{callee}` is missing argument `{parameter}`"

end Fault

namespace Diagnostic

/-- What is wrong and where. -/
def message (d : Diagnostic) : String :=
  match d.position with
  | some ⟨line, file⟩ => s!"{d.fault.message} at {file}:{line}"
  | none => d.fault.message

/-- The first line of a report. -/
def headline (d : Diagnostic) : String :=
  match d.fault.tip? with
  | some tip => s!"Error: {d.fault.name} ({tip})\n"
  | none => s!"Error: {d.fault.name}\n"

/-- A line of the source without its outer blanks, beside its number. -/
def excerpt (number : Nat) (text : String) : String :=
  let digits := toString number
  "".pushn ' ' (digits.length + 1) ++ "|\n" ++ s!"{digits} | {trim text}\n"

/-- The text shown for a diagnostic of `source`. -/
def report (d : Diagnostic) (source : String) : String :=
  match d.position with
  | none => d.headline
  | some ⟨line, file⟩ =>
    d.headline ++ s!"-> {file}:{line}\n" ++ ((line? source line).map (excerpt line)).getD ""

end Diagnostic

end FrontEnd
