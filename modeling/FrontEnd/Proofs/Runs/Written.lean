import FrontEnd.Proofs.Grammar.Phrases
import FrontEnd.Proofs.Runs.Rules

/-!
# Checks declare what is written

A check infers the types of values, but the types that it stores are those that the program writes
down: the annotations of variables, parameters and results, and for a function the type that its
head spells. So the yield of every such type stands in the yield of the program.

- `StandsIn`: a row of terminals is part of another.
- `Step.WrittenIn`: the types that a step stores are written in a row.
- `Stmts.script_only`: a check of statements takes only steps that are written in their yield.
-/

namespace FrontEnd

/-! ## Parts of rows -/

/-- Whether a row of terminals stands somewhere in another, without a gap. -/
def StandsIn (part row : List Terminal) : Prop := part <:+: row

namespace StandsIn

variable {a : Terminal} {as bs row : List Terminal}

/-- A row stands in itself. -/
theorem refl (row : List Terminal) : StandsIn row row := List.infix_rfl

theorem nil (row : List Terminal) : StandsIn [] row := List.nil_infix

/-- What stands in front in a part stands wherever the part does. -/
theorem left (h : StandsIn (as ++ bs) row) : StandsIn as row :=
  (List.prefix_append as bs).isInfix.trans h

/-- What stands behind in a part stands wherever the part does. -/
theorem right (h : StandsIn (as ++ bs) row) : StandsIn bs row :=
  (List.suffix_append as bs).isInfix.trans h

/-- A part without its first terminal stands wherever the part does. -/
theorem tail (h : StandsIn (a :: as) row) : StandsIn as row :=
  (List.suffix_cons a as).isInfix.trans h

end StandsIn

section

variable {row : List Terminal}

/-- The first expression of a list and the others stand where the list does. -/
theorem Exprs.standsIn_cons {e : Expr} {es : List Expr}
    (h : StandsIn (Exprs.yield (e :: es)) row) :
    StandsIn e.yield row ∧ StandsIn (Exprs.yield es) row := by
  by_cases hes : es = []
  · subst hes
    rw [Exprs.yield] at h
    exact ⟨h, .nil row⟩
  · rw [Exprs.yield_cons hes] at h
    exact ⟨h.left, h.right.tail⟩

/-- The first argument of a list and the others stand where the list does. -/
theorem Args.standsIn_cons {arg : Arg} {args : List Arg}
    (h : StandsIn (Args.yield (arg :: args)) row) :
    StandsIn arg.yield row ∧ StandsIn (Args.yield args) row := by
  by_cases hargs : args = []
  · subst hargs
    rw [Args.yield] at h
    exact ⟨h, .nil row⟩
  · rw [Args.yield_cons hargs] at h
    exact ⟨h.left, h.right.tail⟩

/-- The first parameter of a list and the others stand where the list does. -/
theorem Params.standsIn_cons {p : Param} {params : List Param}
    (h : StandsIn (Params.yield (p :: params)) row) :
    StandsIn p.yield row ∧ StandsIn (Params.yield params) row := by
  by_cases hparams : params = []
  · subst hparams
    rw [Params.yield] at h
    exact ⟨h, .nil row⟩
  · rw [Params.yield_cons hparams] at h
    exact ⟨h.left, h.right.tail⟩

/-- Each parameter of a list stands where the list does. -/
theorem Params.standsIn_of_mem {params : List Param} (h : StandsIn (Params.yield params) row) :
    ∀ p ∈ params, StandsIn p.yield row := by
  induction params with
  | nil => exact List.forall_mem_nil _
  | cons p params ih =>
    obtain ⟨hp, hparams⟩ := Params.standsIn_cons h
    exact List.forall_mem_cons.2 ⟨hp, ih hparams⟩

/-- A parameter is written with its name and its type. -/
theorem Param.standsIn {p : Param} (h : StandsIn p.yield row) :
    StandsIn (.word .identifier p.name :: .mark .colon :: p.type.yield) row := by
  obtain ⟨name, type, default?⟩ := p
  cases default? with
  | none =>
    rw [Param.yield] at h
    exact h
  | some value =>
    rw [Param.yield] at h
    exact h.left

/-- The type of a parameter stands where the parameter does. -/
theorem Param.standsIn_type {p : Param} (h : StandsIn p.yield row) : StandsIn p.type.yield row :=
  (Param.standsIn h).tail.tail

/-- The types of parameters stand where their list does. -/
theorem Params.standsIn_type {params : List Param} (h : StandsIn (Params.yield params) row) :
    ∀ p ∈ params, StandsIn p.type.yield row :=
  fun p hp => Param.standsIn_type (Params.standsIn_of_mem h p hp)

end

/-! ## Steps that are written in a row -/

/-- Whether the types that a step stores, if any, are written in a row. -/
def Step.WrittenIn (row : List Terminal) : Step → Prop
  | .declare _ type => StandsIn type.yield row
  | .enterBody result => StandsIn result.yield row
  | _ => True

namespace Script.Only

variable {row : List Terminal} {body : Script Unit}

/-- Declaring parameters binds types that are written where the parameters are. -/
theorem declareParams {params : List Param} (h : ∀ p ∈ params, StandsIn p.type.yield row) :
    (declareParams params).Only (Step.WrittenIn row) := by
  induction params with
  | nil => exact .pure ()
  | cons p params ih =>
    obtain ⟨hp, hparams⟩ := List.forall_mem_cons.1 h
    rw [Script.declareParams]
    exact .bind (.take hp) fun _ => ih hparams

/-- A block takes the steps of its statements, and steps that bind nothing. -/
theorem inBlock (hbody : body.Only (Step.WrittenIn row)) :
    (inBlock body).Only (Step.WrittenIn row) :=
  .bind (.take trivial) fun _ => hbody.bind fun _ => .take trivial

/-- A body binds its parameters and its result, which are written in front of it. -/
theorem inBody {params : List Param} {result : Ty} (hparams : StandsIn (Params.yield params) row)
    (hresult : StandsIn result.yield row) (hbody : body.Only (Step.WrittenIn row)) :
    (inBody params result body).Only (Step.WrittenIn row) := by
  have hdeclared := declareParams (Params.standsIn_type hparams)
  have hleave : (Script.closeScope >>= fun _ => Script.leaveBody).Only (Step.WrittenIn row) :=
    .bind (.take trivial) fun _ => .take trivial
  exact .bind (.take hresult) fun _ => .bind (.take trivial) fun _ =>
    hdeclared.bind fun _ => hbody.bind fun _ => hleave

end Script.Only

/-! ## Scripts of trees -/

section

variable {row : List Terminal}

mutual

/-- What the check of an expression binds is written in the expression. -/
theorem Expr.script_only : ∀ e : Expr, StandsIn e.yield row → e.script.Only (Step.WrittenIn row)
  | .cond condition, h => by
    rw [Expr.yield] at h
    rw [Expr.script]
    exact condition.script_only h
  | .add sum, h => by
    rw [Expr.yield] at h
    rw [Expr.script]
    exact sum.script_only h
  | .array entries, h => by
    rw [Expr.yield] at h
    rw [Expr.script]
    exact .bind (Exprs.script_only entries h.left.tail) fun types => .judge _
  | .closure params result body, h => by
    rw [Expr.yield] at h
    rw [Expr.script]
    have hparams := h.left.left.left.tail
    have hbody := Stmts.script_only body h.left.right.tail.tail
    refine .bind (Params.script_only [] params hparams) fun _ => ?_
    exact .bind (.inBody hparams h.left.left.right.tail.tail hbody) fun _ => .pure _

theorem Exprs.script_only : ∀ es : List Expr,
    StandsIn (Exprs.yield es) row → (Exprs.script es).Only (Step.WrittenIn row)
  | [], _ => .pure []
  | e :: es, h => by
    obtain ⟨he, hes⟩ := Exprs.standsIn_cons h
    rw [Exprs.script]
    exact .bind (e.script_only he) fun _ => .bind (Exprs.script_only es hes) fun _ => .pure _

/-- What the check of parameters binds is written in their defaults. -/
theorem Params.script_only : ∀ (seen : List String) (params : List Param),
    StandsIn (Params.yield params) row → (Params.script seen params).Only (Step.WrittenIn row)
  | _, [], _ => .pure ()
  | seen, ⟨name, type, default?⟩ :: params, h => by
    obtain ⟨hp, hparams⟩ := Params.standsIn_cons h
    rw [Params.script]
    refine .bind (.judge _) fun _ => .bind ?_ fun _ => Params.script_only _ params hparams
    cases default? with
    | none => exact .pure ()
    | some value =>
      rw [Param.yield] at hp
      rw [Default.script]
      exact .bind (value.script_only hp.right.tail) fun _ => .judge _

theorem Condition.script_only : ∀ condition : Condition,
    StandsIn condition.yield row → condition.script.Only (Step.WrittenIn row)
  | .single left relop right, h => by
    rw [Condition.yield] at h
    rw [Condition.script]
    refine .bind (left.script_only h.left) fun _ =>
      .bind (right.script_only h.right.tail) fun _ => ?_
    exact .bind (.judge _) fun _ => .pure _
  | .chain left relop right boolop next, h => by
    rw [Condition.yield] at h
    rw [Condition.script]
    refine .bind (left.script_only h.left.left) fun _ =>
      .bind (right.script_only h.left.right.tail) fun _ => ?_
    exact .bind (.judge _) fun _ => next.script_only h.right.tail

theorem AddExpr.script_only : ∀ sum : AddExpr,
    StandsIn sum.yield row → sum.script.Only (Step.WrittenIn row)
  | .single term, h => by
    rw [AddExpr.yield] at h
    rw [AddExpr.script]
    exact term.script_only h
  | .chain term addop next, h => by
    rw [AddExpr.yield] at h
    rw [AddExpr.script]
    refine .bind (term.script_only h.left) fun _ =>
      .bind (next.script_only h.right.tail) fun _ => ?_
    exact .bind (.judge _) fun _ => .pure _

theorem Term.script_only : ∀ term : Term,
    StandsIn term.yield row → term.script.Only (Step.WrittenIn row)
  | .single factor, h => by
    rw [Term.yield] at h
    rw [Term.script]
    exact factor.script_only h
  | .chain factor mulop next, h => by
    rw [Term.yield] at h
    rw [Term.script]
    refine .bind (factor.script_only h.left) fun _ =>
      .bind (next.script_only h.right.tail) fun _ => ?_
    exact .bind (.judge _) fun _ => .pure _

/-- A factor binds only what its arguments or its inner expression bind. Indices are not checked, so
they bind nothing. -/
theorem Factor.script_only : ∀ factor : Factor,
    StandsIn factor.yield row → factor.script.Only (Step.WrittenIn row)
  | .var name indices, _ => by
    -- Indices may write types down too, but they are not looked at.
    rw [Factor.script]
    exact .bind (.take trivial) fun _ => .judge _
  | .call callee args, h => by
    rw [Factor.yield] at h
    rw [Factor.script]
    refine .bind (.take trivial) fun _ => .bind (.judge _) fun (params, result) => ?_
    exact .bind (Args.script_only params args h.left.tail.tail) fun _ => .pure _
  | .int value, _ => .pure _
  | .float value, _ => .pure _
  | .paren inner, h => by
    rw [Factor.yield] at h
    rw [Factor.script]
    exact inner.script_only h.left.tail

theorem Args.script_only : ∀ (params : List Param) (args : List Arg),
    StandsIn (Args.yield args) row → (Args.script params args).Only (Step.WrittenIn row)
  | _, [], _ => .pure ()
  | params, ⟨name, value⟩ :: args, h => by
    obtain ⟨harg, hargs⟩ := Args.standsIn_cons h
    rw [Arg.yield] at harg
    rw [Args.script]
    refine .bind (value.script_only harg.tail.tail) fun _ => .bind (.judge _) fun _ => ?_
    exact Args.script_only params args hargs

/-- What the check of a statement binds is written in the statement: its annotation, or the
parameters and the result of the function that it declares. -/
theorem Stmt.script_only : ∀ s : Stmt, StandsIn s.yield row → s.script.Only (Step.WrittenIn row)
  | .ifThen condition body, h => by
    rw [Stmt.yield] at h
    rw [Stmt.script]
    refine .bind (condition.script_only h.left.left.tail) fun _ => ?_
    exact .inBlock (Stmts.script_only body h.left.right.tail)
  | .ifElse condition body otherwise, h => by
    rw [Stmt.yield] at h
    rw [Stmt.script]
    refine .bind (condition.script_only h.left.left.left.tail) fun _ => ?_
    refine .bind (.inBlock (Stmts.script_only body h.left.left.right.tail)) fun _ => ?_
    exact .inBlock (Stmts.script_only otherwise h.left.right.tail)
  | .loop condition body, h => by
    rw [Stmt.yield] at h
    rw [Stmt.script]
    refine .bind (condition.script_only h.left.left.tail) fun _ => ?_
    exact .inBlock (Stmts.script_only body h.left.right.tail)
  | .assign name value, h => by
    rw [Stmt.yield] at h
    rw [Stmt.script]
    refine .bind (.take trivial) fun _ => ?_
    exact .bind (value.script_only h.left.tail.tail) fun _ => .judge _
  | .ret value, h => by
    rw [Stmt.yield] at h
    rw [Stmt.script]
    refine .bind (.take trivial) fun _ => ?_
    exact .bind (value.script_only h.left.tail) fun _ => .judge _
  | .letVar name type value, h => by
    rw [Stmt.yield] at h
    rw [Stmt.script]
    have htype := h.left.left.tail.tail.tail
    refine .bind (value.script_only h.left.right.tail) fun _ => .bind (.judge _) fun _ => ?_
    exact .take htype
  | .letFun name params result body, h => by
    rw [Stmt.yield] at h
    rw [Stmt.script]
    have hbody := Stmts.script_only body h.left.right.tail.tail
    -- The head of the function, without its keyword and its name, is the yield of its type.
    have htype : StandsIn (Ty.fn params result 0).yield row := by
      rw [Ty.yield, levels_zero]
      exact h.left.left.tail.tail
    have hparams := h.left.left.left.tail.tail.tail
    refine .bind (.inBody hparams h.left.left.right.tail.tail hbody) fun _ => ?_
    exact .take htype
  | .call callee args, h => by
    rw [Stmt.yield] at h
    rw [Stmt.script]
    refine .bind (.take trivial) fun _ => .bind (.judge _) fun (params, result) => ?_
    exact Args.script_only params args h.left.tail.tail

/-- So what the check of a program binds is written in the program. -/
theorem Stmts.script_only : ∀ body : List Stmt,
    StandsIn (Stmts.yield body) row → (Stmts.script body).Only (Step.WrittenIn row)
  | [], _ => .pure ()
  | s :: rest, h => by
    rw [Stmts.yield] at h
    rw [Stmts.script]
    exact .bind (s.script_only h.left) fun _ => Stmts.script_only rest h.right

end

end

end FrontEnd
