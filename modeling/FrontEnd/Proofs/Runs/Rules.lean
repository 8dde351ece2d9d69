import FrontEnd.Check.Rules
import FrontEnd.Proofs.Runs.Script

/-!
# The scripts of the rules

The rules of the language once more, with scripts in the place of checks. Running the script of a
tree is checking the tree (`Expr.run_script`, `Stmts.run_script`), so the points of the script are
the contexts to which the check of the tree comes.

`Program.points` are those of a whole program. The last is the context at its end
(`Program.mem_points_of_check`).
-/

namespace FrontEnd

open Script

/-! ## Scripts of trees

Clause by clause the text is that of the rules. -/

mutual

/-- The steps of checking an expression. A closure enters a body, and nothing else of an expression
changes the context. -/
def Expr.script : Expr → Script Ty
  | .cond condition => condition.script
  | .add sum => sum.script
  | .array entries => do
    let types ← Exprs.script entries
    judge (Typing.array types)
  | .closure params result body => do
    Params.script [] params
    inBody params result (Stmts.script body)
    return .fn params result 0

/-- The steps of checking several expressions from left to right. -/
def Exprs.script : List Expr → Script (List Ty)
  | [] => return []
  | e :: es => do
    let type ← e.script
    let types ← Exprs.script es
    return type :: types

/-- The steps of checking the parameters of a closure: those of their defaults. -/
def Params.script (seen : List String) : List Param → Script Unit
  | [] => return ()
  | ⟨name, type, default?⟩ :: params => do
    judge (Typing.newParam seen name)
    Default.script type default?
    Params.script (name :: seen) params

/-- The steps of checking a default, if there is one. -/
def Default.script (type : Ty) : Option Expr → Script Unit
  | none => return ()
  | some value => do
    let received ← value.script
    judge (Typing.demand type received)

/-- The steps of checking a condition: both sides of each comparison before it is judged. -/
def Condition.script : Condition → Script Ty
  | .single left relop right => do
    let leftType ← left.script
    let rightType ← right.script
    judge (Typing.comparable leftType relop rightType)
    return .bool
  | .chain left relop right _ next => do
    let leftType ← left.script
    let rightType ← right.script
    judge (Typing.comparable leftType relop rightType)
    next.script

/-- The steps of checking a sum: all terms before any two are joined. -/
def AddExpr.script : AddExpr → Script Ty
  | .single term => term.script
  | .chain term _ next => do
    let head ← term.script
    let tail ← next.script
    judge (Typing.joinable head tail)
    return head

/-- The steps of checking a term: all factors before any two are joined. -/
def Term.script : Term → Script Ty
  | .single factor => factor.script
  | .chain factor _ next => do
    let head ← factor.script
    let tail ← next.script
    judge (Typing.joinable head tail)
    return head

/-- The steps of checking a factor. A name is looked up before the arguments are checked. -/
def Factor.script : Factor → Script Ty
  | .var name indices => do
    let declared ← lookup name
    judge (Typing.indexed name declared indices.length)
  | .call callee args => do
    let declared ← lookup callee
    let (params, result) ← judge (Typing.signature callee declared args)
    Args.script params args
    return result
  | .int _ => return .int
  | .float _ => return .float
  | .paren inner => inner.script

/-- The steps of checking arguments against the parameters they name. -/
def Args.script (params : List Param) : List Arg → Script Unit
  | [] => return ()
  | ⟨name, value⟩ :: args => do
    let received ← value.script
    judge (Typing.argument params name received)
    Args.script params args

/-- The steps of checking a statement. A function declares its name behind its body. -/
def Stmt.script : Stmt → Script Unit
  | .ifThen condition body => do
    let _ ← condition.script
    inBlock (Stmts.script body)
  | .ifElse condition body otherwise => do
    let _ ← condition.script
    inBlock (Stmts.script body)
    inBlock (Stmts.script otherwise)
  | .loop condition body => do
    let _ ← condition.script
    inBlock (Stmts.script body)
  | .assign name value => do
    let expected ← lookup name
    let received ← value.script
    judge (Typing.demand expected received)
  | .ret value => do
    let expected ← resultType
    let received ← value.script
    judge (Typing.demand expected received)
  | .letVar name type value => do
    let received ← value.script
    judge (Typing.demand type received)
    declare name type
  | .letFun name params result body => do
    inBody params result (Stmts.script body)
    declare name (.fn params result 0)
  | .call callee args => do
    let declared ← lookup callee
    let (params, _) ← judge (Typing.signature callee declared args)
    Args.script params args

/-- The steps of checking statements in turn. -/
def Stmts.script : List Stmt → Script Unit
  | [] => return ()
  | s :: rest => do
    s.script
    Stmts.script rest

end

/-! ## Running them is checking -/

mutual

/-- Running the script of an expression is checking it. The equations of both sides are the same
clause by clause, so `simp` closes each case from those for the parts. -/
theorem Expr.run_script : ∀ e : Expr, e.script.run = e.check
  | .cond condition => by simp [Expr.script, Expr.check, condition.run_script]
  | .add sum => by simp [Expr.script, Expr.check, sum.run_script]
  | .array entries => by simp [Expr.script, Expr.check, Exprs.run_script entries]
  | .closure params result body => by
    simp [Expr.script, Expr.check, Params.run_script [] params, Stmts.run_script body]

theorem Exprs.run_script : ∀ es : List Expr, (Exprs.script es).run = Exprs.check es
  | [] => rfl
  | e :: es => by simp [Exprs.script, Exprs.check, e.run_script, Exprs.run_script es]

/-- Running the script of parameters is checking them, after the same names. -/
theorem Params.run_script : ∀ (seen : List String) (params : List Param),
    (Params.script seen params).run = Params.check seen params
  | _, [] => rfl
  | seen, ⟨name, type, default?⟩ :: params => by
    simp [Params.script, Params.check, Default.run_script type default?,
      Params.run_script (name :: seen) params]

theorem Default.run_script : ∀ (type : Ty) (default? : Option Expr),
    (Default.script type default?).run = Default.check type default?
  | _, none => rfl
  | _, some value => by simp [Default.script, Default.check, value.run_script]

theorem Condition.run_script : ∀ condition : Condition, condition.script.run = condition.check
  | .single left _ right => by
    simp [Condition.script, Condition.check, left.run_script, right.run_script]
  | .chain left _ right _ next => by
    simp [Condition.script, Condition.check, left.run_script, right.run_script, next.run_script]

theorem AddExpr.run_script : ∀ sum : AddExpr, sum.script.run = sum.check
  | .single term => by simp [AddExpr.script, AddExpr.check, term.run_script]
  | .chain term _ next => by
    simp [AddExpr.script, AddExpr.check, term.run_script, next.run_script]

theorem Term.run_script : ∀ term : Term, term.script.run = term.check
  | .single factor => by simp [Term.script, Term.check, factor.run_script]
  | .chain factor _ next => by
    simp [Term.script, Term.check, factor.run_script, next.run_script]

/-- Running the script of a factor is checking it. -/
theorem Factor.run_script : ∀ factor : Factor, factor.script.run = factor.check
  | .var _ _ => by simp [Factor.script, Factor.check]
  | .call _ args => by simp [Factor.script, Factor.check, fun params => Args.run_script params args]
  | .int _ => rfl
  | .float _ => rfl
  | .paren inner => by simp [Factor.script, Factor.check, inner.run_script]

/-- Running the script of arguments is checking them against the same parameters. -/
theorem Args.run_script : ∀ (params : List Param) (args : List Arg),
    (Args.script params args).run = Args.check params args
  | _, [] => rfl
  | params, ⟨_, value⟩ :: args => by
    simp [Args.script, Args.check, value.run_script, Args.run_script params args]

/-- Running the script of a statement is checking it. -/
theorem Stmt.run_script : ∀ s : Stmt, s.script.run = s.check
  | .ifThen condition body => by
    simp [Stmt.script, Stmt.check, condition.run_script, Stmts.run_script body]
  | .ifElse condition body otherwise => by
    simp [Stmt.script, Stmt.check, condition.run_script, Stmts.run_script body,
      Stmts.run_script otherwise]
  | .loop condition body => by
    simp [Stmt.script, Stmt.check, condition.run_script, Stmts.run_script body]
  | .assign _ value => by simp [Stmt.script, Stmt.check, value.run_script]
  | .ret value => by simp [Stmt.script, Stmt.check, value.run_script]
  | .letVar _ _ value => by simp [Stmt.script, Stmt.check, value.run_script]
  | .letFun _ _ _ body => by simp [Stmt.script, Stmt.check, Stmts.run_script body]
  | .call _ args => by simp [Stmt.script, Stmt.check, fun params => Args.run_script params args]

/-- Running the script of statements is checking them, so a script has no steps of its own. -/
theorem Stmts.run_script : ∀ body : List Stmt, (Stmts.script body).run = Stmts.check body
  | [] => rfl
  | s :: rest => by simp [Stmts.script, Stmts.check, s.run_script, Stmts.run_script rest]

end

/-! ## Programs -/

/-- The contexts to which the check of a program comes. -/
def Program.points (program : Program) : List Context :=
  (Stmts.script program.body).points .initial

/-- The context at the end of a program without a fault is one of them. -/
theorem Program.mem_points_of_check {program : Program} {c : Context}
    (h : program.check = .ok c) : c ∈ program.points := by
  apply stop_mem_points (a := ())
  rw [Stmts.run_script]
  unfold Program.check at h
  split at h
  · next hrun =>
    cases h
    exact hrun
  · cases h

end FrontEnd
