import FrontEnd.Main
import FrontEnd.Proofs.Agreement.NormalForm
import FrontEnd.Proofs.Agreement.Widening
import FrontEnd.Proofs.Lexing.Respacing
import FrontEnd.Proofs.Naming.Faults
import FrontEnd.Proofs.Parameters.Repetition
import FrontEnd.Proofs.Parsing.CorrectPrefix
import FrontEnd.Proofs.Parsing.Discipline
import FrontEnd.Proofs.Renaming.Verdict
import FrontEnd.Proofs.Runs.Reached
import FrontEnd.Proofs.Scoping.Defaults
import FrontEnd.Proofs.Scoping.Session
import FrontEnd.Proofs.Scoping.Visibility
import FrontEnd.Proofs.Stages.Composition
import FrontEnd.Proofs.Stages.Diagnostics
import FrontEnd.Proofs.Stages.Excerpts
import FrontEnd.Proofs.Stages.Layout
import FrontEnd.Proofs.Stages.Literals
import FrontEnd.Proofs.TypeText.Contrasts
import FrontEnd.Proofs.Typing.Arrays
import FrontEnd.Proofs.Typing.Depths
import FrontEnd.Proofs.Typing.Orderings
import FrontEnd.Syntax.Equal
import FrontEnd.Syntax.Type
