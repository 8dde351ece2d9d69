import FrontEnd.Proofs.Scoping.Leftover

/-!
# Contexts in use

A context may go through one check after another, also behind those that failed, and its scopes may
be opened, left and declared in from outside.

- `Operation`: what can be done with a context; `Context.run`: the context behind several of them,
  whether they succeed or fail.
- `Context.global_within_step`: no operation takes a declaration out of the global scope or changes
  its type; `Context.global_within_run`: so no sequence of operations does.
- `failed_checks_unwind`: this, together with what a failed check leaves behind.
-/

namespace FrontEnd

open Check

/-- What can be done with a context. -/
inductive Operation where
  | expr (e : Expr)
  | condition (condition : Condition)
  | sum (sum : AddExpr)
  | term (term : Term)
  | factor (factor : Factor)
  | stmt (s : Stmt)
  | block (body : List Stmt)
  | body (params : List Param) (result : Ty) (body : List Stmt)
  | openScope
  | closeScope
  | declare (name : String) (type : Ty)
  | enterBody (result : Ty)
  | leaveBody

/-- The context behind a check, whether it succeeds or fails. -/
def Check.behind {α : Type} (m : Check α) (c : Context) : Context :=
  match m c with
  | .ok _ stop => stop
  | .error _ stop => stop

namespace Context

/-- The outermost scope. -/
def global (c : Context) : Scope := c.scopes.getLast (List.cons_ne_nil _ _)

/-- The context behind an operation. -/
def step (c : Context) : Operation → Context
  | .expr e => e.check.behind c
  | .condition condition => condition.check.behind c
  | .sum sum => sum.check.behind c
  | .term term => term.check.behind c
  | .factor factor => factor.check.behind c
  | .stmt s => s.check.behind c
  | .block body => (inBlock (Stmts.check body)).behind c
  | .body params result body => (inBody params result (Stmts.check body)).behind c
  | .openScope => openScope.behind c
  | .closeScope => closeScope.behind c
  | .declare name type => (declare name type).behind c
  | .enterBody result => (enterBody result).behind c
  | .leaveBody => leaveBody.behind c

/-- The context behind several operations. -/
def run (c : Context) (operations : List Operation) : Context := operations.foldl step c

/-- Operations in two sessions are operations in one. -/
theorem run_append (c : Context) (earlier later : List Operation) :
    c.run (earlier ++ later) = (c.run earlier).run later := List.foldl_append

/-- A context is never without a scope. -/
theorem one_le_depth (c : Context) : 1 ≤ c.depth := Nat.le_add_left 1 _

variable {c stop : Context}

/-- The outermost scope is the global one, and it is always there. -/
theorem getLast?_scopes (c : Context) : c.scopes.getLast? = some c.global :=
  List.getLast?_eq_some_getLast _

/-- What is on top of a context leaves its global scope alone. -/
theorem Entered.global_eq {frames : List Frame} (h : c.Entered frames stop) :
    stop.global = c.global := by
  obtain ⟨inner, -, hscopes, -⟩ := h
  have hlast : stop.scopes.getLast? = c.scopes.getLast? := by
    rw [hscopes, List.getLast?_append, getLast?_scopes]
    rfl
  rw [getLast?_scopes, getLast?_scopes] at hlast
  exact Option.some.inj hlast

/-- A scope that keeps its declarations keeps those of the global scope, which it may be. -/
theorem global_within {scope : Scope} (h : c.scope.Within scope) :
    c.global.Within ({ c with scope := scope } : Context).global := by
  obtain ⟨current, _ | ⟨next, outer⟩, results⟩ := c
  · exact h
  · exact .refl _

end Context

/-! ## The global scope -/

namespace Check

variable {α : Type} {m : Check α} {c : Context}

/-- What holds behind a success and behind a fault holds behind the check. -/
theorem behind_of {Q : Context → Prop} (hleaves : m.Leaves c Q) (hfails : m.Fails c Q) :
    Q (m.behind c) := by
  unfold behind
  cases hrun : m c with
  | ok a stop => exact hleaves.elim hrun
  | error fault stop => exact hfails.elim hrun

/-- A check that keeps the context or leaves frames on it only extends the global scope. -/
theorem global_within_behind {r : Except Fault α} {frames : List Frame} (hkeeps : m.Keeps c r)
    (hfails : m.Fails c (c.Entered frames)) : c.global.Within (m.behind c).global := by
  have hglobal : (m.behind c).global = c.global := by
    refine behind_of (Q := fun stop => stop.global = c.global) ?_ ?_
    · exact Agrees.leaves hkeeps fun _ _ => rfl
    · exact hfails.mono fun stop hstop => hstop.global_eq
  rw [hglobal]
  exact .refl _

end Check

namespace Context

/-- A statement that is accepted only extends the global scope. -/
theorem global_within_of_adds {s : Stmt} {c stop : Context} (h : s.Adds c stop) :
    c.global.Within stop.global := by
  cases s with
  | letVar name type value =>
    obtain ⟨hnew, rfl⟩ := h
    exact global_within (.cons hnew)
  | letFun name params result body =>
    obtain ⟨hnew, rfl⟩ := h
    exact global_within (.cons hnew)
  | _ =>
    cases h
    exact .refl _

/-- A declaration extends the global scope if it is made there. -/
theorem global_within_declare (c : Context) (name : String) (type : Ty) :
    c.global.Within ((declare name type).behind c).global := by
  unfold Check.behind declare
  cases h : c.scope.declare name type with
  | ok scope =>
    obtain ⟨hnew, rfl⟩ := Scope.declare_eq_ok_iff.1 h
    exact global_within (.cons hnew)
  | error fault => exact .refl _

/-- The global scope is never left: leaving a scope succeeds in front of another one only. -/
theorem global_within_closeScope (c : Context) : c.global.Within (closeScope.behind c).global := by
  obtain ⟨scope, _ | ⟨next, outer⟩, results⟩ := c
  · exact .refl _
  · exact .refl _

/-- No operation takes a declaration out of the global scope or changes its type. -/
theorem global_within_step (c : Context) (operation : Operation) :
    c.global.Within (c.step operation).global := by
  cases operation with
  | expr e => exact global_within_behind (e.check_keeps c) (e.check_fails c)
  | condition condition =>
    exact global_within_behind (condition.check_keeps c) (condition.check_fails c)
  | sum sum => exact global_within_behind (sum.check_keeps c) (sum.check_fails c)
  | term term => exact global_within_behind (term.check_keeps c) (term.check_fails c)
  | factor factor => exact global_within_behind (factor.check_keeps c) (factor.check_fails c)
  | stmt s =>
    refine behind_of (Q := fun stop => c.global.Within stop.global) ?_ ?_
    · exact (s.check_leaves c).mono fun stop hstop => global_within_of_adds hstop
    · refine (s.check_fails c).mono fun stop hstop => ?_
      rw [hstop.global_eq]
      exact .refl _
  | block body =>
    have hbody := Stmts.check_agrees body c.block
    exact global_within_behind (inBlock_keeps hbody)
      (inBlock_fails hbody (Stmts.check_fails body c.block))
  | body params result body =>
    have hagrees := fun scope => Stmts.check_agrees body (c.body scope result)
    have hfails := fun scope => Stmts.check_fails body (c.body scope result)
    have hkeeps : (inBody params result (Stmts.check body)).Keeps c
        (c.env.body params result >>= fun env => Stmts.checkIn env body) := inBody_keeps hagrees
    exact global_within_behind hkeeps (inBody_fails (fun env => Stmts.checkIn env body)
      (fun env => Stmts.unfinished env body) hagrees hfails)
  | openScope => exact .refl _
  | closeScope => exact c.global_within_closeScope
  | declare name type => exact c.global_within_declare name type
  | enterBody result => exact .refl _
  | leaveBody => exact .refl _

/-- A session never takes a declaration out of the global scope. -/
theorem global_within_run (c : Context) (operations : List Operation) :
    c.global.Within (c.run operations).global := by
  induction operations generalizing c with
  | nil => exact .refl _
  | cons operation operations ih =>
    exact (c.global_within_step operation).trans (ih (c.step operation))

end Context

/-- **Unwinding**: a check that fails leaves all scopes and result types that were there, and on top
of them one scope for every block and body around the fault and the result types of these bodies.
Whatever is done with a context, it has a scope, and what was declared in the global scope before
stays declared there. -/
theorem failed_checks_unwind :
    (∀ (e : Expr) (c : Context), e.check.Fails c (c.Entered (e.unfinished c.env))) ∧
    (∀ (condition : Condition) (c : Context),
      condition.check.Fails c (c.Entered (condition.unfinished c.env))) ∧
    (∀ (sum : AddExpr) (c : Context), sum.check.Fails c (c.Entered (sum.unfinished c.env))) ∧
    (∀ (term : Term) (c : Context), term.check.Fails c (c.Entered (term.unfinished c.env))) ∧
    (∀ (factor : Factor) (c : Context),
      factor.check.Fails c (c.Entered (factor.unfinished c.env))) ∧
    (∀ (s : Stmt) (c : Context), s.check.Fails c (c.Entered (s.unfinished c.env))) ∧
    (∀ (body : List Stmt) (c : Context), (inBlock (Stmts.check body)).Fails c
      (c.Entered (.block :: Stmts.unfinished c.env.block body))) ∧
    ∀ (earlier later : List Operation) (c : Context), 1 ≤ (c.run earlier).depth ∧
      (c.run earlier).global.Within (c.run (earlier ++ later)).global := by
  refine ⟨Expr.check_fails, Condition.check_fails, AddExpr.check_fails, Term.check_fails,
    Factor.check_fails, Stmt.check_fails, fun body c => ?_, fun earlier later c => ?_⟩
  · exact inBlock_fails (Stmts.check_agrees body c.block) (Stmts.check_fails body c.block)
  · refine ⟨Context.one_le_depth _, ?_⟩
    rw [Context.run_append]
    exact Context.global_within_run _ later

end FrontEnd
