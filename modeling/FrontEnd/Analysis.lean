import FrontEnd.Check.Rules
import FrontEnd.Parser.Grammar
import FrontEnd.Token.Scan

/-!
# Analysis of source text

`analyse` takes a source text through all stages: it is cut into tokens, parsed to a program, and
the program is checked. The first fault of the first stage that has one is the outcome.
-/

namespace FrontEnd

/-- The program that a source text writes, and the context at its end. -/
def analyse (source file : String) : Except Diagnostic (Program × Context) := do
  let program ← parseProgram (tokenize source file) file
  let context ← program.check.mapError Diagnostic.semantic
  return (program, context)

/-- The program that a source text writes, if it has no fault. -/
def checkSource (source file : String) : Except Diagnostic Program :=
  (analyse source file).map Prod.fst

/-- The outcome by what the stages answer. -/
theorem checkSource_eq (source file : String) :
    checkSource source file =
      match parseProgram (tokenize source file) file with
      | .error d => .error d
      | .ok program =>
        match program.check with
        | .error fault => .error (.semantic fault)
        | .ok _ => .ok program := by
  unfold checkSource analyse
  cases parseProgram (tokenize source file) file with
  | error d => rfl
  | ok program =>
    show (program.check.mapError Diagnostic.semantic >>= fun c =>
      Except.ok (program, c)).map Prod.fst =
        match program.check with
        | .error fault => .error (.semantic fault)
        | .ok _ => .ok program
    cases program.check with
    | error fault => rfl
    | ok c => rfl

/-- What the stages have answered, read off the outcome. -/
theorem checkSource_stages (source file : String) :
    match checkSource source file with
    | .ok program =>
      parseProgram (tokenize source file) file = .ok program ∧ ∃ c, program.check = .ok c
    | .error d =>
      parseProgram (tokenize source file) file = .error d ∨
        ∃ (program : Program) (fault : Fault),
          program.check = .error fault ∧ d = .semantic fault := by
  rw [checkSource_eq]
  cases parseProgram (tokenize source file) file with
  | error d => exact .inl rfl
  | ok program =>
    dsimp only
    cases hcheck : program.check with
    | error fault => exact .inr ⟨program, fault, hcheck, rfl⟩
    | ok c => exact ⟨rfl, c, hcheck⟩

end FrontEnd
