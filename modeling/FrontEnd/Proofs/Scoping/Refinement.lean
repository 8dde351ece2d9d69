import FrontEnd.Check.Rules
import FrontEnd.Proofs.Scoping.Lexical

/-!
# Checks refine lexical scoping

Checks share one context and open and leave scopes in it, while the lexical rules are handed what
surrounds a tree. What surrounds the current point is an abstraction of the context
(`Context.env`), and under it every check ends as its lexical rule does:

- `Check.Agrees`: a check has a given result and leaves a given context behind.
- `Expr.check_keeps`: checking an expression answers its type and changes nothing.
- `Stmt.check_agrees`: checking a statement adds what it declares, and nothing else.
- `check_refines_lexical`: so both sides have the same types and the same first faults.
-/

namespace FrontEnd

/-! ## Contexts as surroundings -/

namespace Context

/-- What surrounds the current point. -/
def env (c : Context) : Env := ⟨c.scope, c.outer, c.results.head?⟩

/-- The context with further declarations in its innermost scope. -/
def declaring (c : Context) (declarations : List (String × Ty)) : Context :=
  { c with scope := declarations.reverse ++ c.scope }

/-- The context in which a block opens. -/
def block (c : Context) : Context := ⟨[], c.scopes, c.results⟩

/-- The context in which the statements of a body are checked. -/
def body (c : Context) (scope : Scope) (result : Ty) : Context :=
  ⟨scope, c.scopes, result :: c.results⟩

/-- Declarations extend what surrounds a point as they do in the rules. -/
theorem env_declaring (c : Context) (declaration? : Option (String × Ty)) :
    (c.declaring declaration?.toList).env = c.env.extend declaration? := by
  cases declaration? <;> rfl

/-- Declarations in two steps are declarations in one. -/
theorem declaring_declaring (c : Context) (ds es : List (String × Ty)) :
    (c.declaring ds).declaring es = c.declaring (ds ++ es) := by
  simp only [declaring, List.reverse_append, List.append_assoc]

end Context

/-! ## Checks that agree with a result -/

namespace Check

variable {α β : Type}

/-- From `c` the check ends with the result `r`, and in the context `stop` unless with a fault. -/
def Agrees (m : Check α) (c : Context) (r : Except Fault α) (stop : Context) : Prop :=
  match r with
  | .ok a => m c = .ok a stop
  | .error fault => ∃ c', m c = .error fault c'

/-- From `c` the check ends with the result `r` and leaves the context as it was. -/
abbrev Keeps (m : Check α) (c : Context) (r : Except Fault α) : Prop := m.Agrees c r c

variable {m : Check α} {f : α → Check β} {g : α → Except Fault β} {c c₁ c₂ : Context}
  {r : Except Fault α}

/-- Behind a success, a check goes on from where it ended. -/
theorem bind_ok {a : α} (h : m c = .ok a c₁) : (m >>= f) c = f a c₁ := by
  show EStateM.bind m f c = _
  unfold EStateM.bind
  rw [h]

/-- A fault ends a check where it arose. -/
theorem bind_error {fault : Fault} (h : m c = .error fault c₁) :
    (m >>= f) c = .error fault c₁ := by
  show EStateM.bind m f c = _
  unfold EStateM.bind
  rw [h]

namespace Agrees

/-- A success agrees with its answer. -/
theorem ok {a : α} (h : m c = .ok a c₁) : m.Agrees c (.ok a) c₁ := h

/-- A fault agrees with itself, wherever the check was to end. -/
theorem error {fault : Fault} (h : m c = .error fault c₁) : m.Agrees c (.error fault) c₂ :=
  ⟨c₁, h⟩

/-- **Sequence**: checks in turn agree with rules in turn, if each agrees from where the one before
ends. -/
theorem bind (hm : m.Agrees c r c₁) (hf : ∀ a, (f a).Agrees c₁ (g a) c₂) :
    (m >>= f).Agrees c (r >>= g) c₂ := by
  cases r with
  | ok a =>
    have hrun : (m >>= f) c = f a c₁ := bind_ok hm
    have hnext : (f a).Agrees c₁ (g a) c₂ := hf a
    unfold Agrees at hnext ⊢
    rw [hrun]
    exact hnext
  | error fault =>
    obtain ⟨c', hm⟩ : ∃ c', m c = .error fault c' := hm
    exact error (bind_error hm)

/-- A step that cannot fail may come before. -/
theorem after {a : α} {r : Except Fault β} (hm : m c = .ok a c₁) (hf : (f a).Agrees c₁ r c₂) :
    (m >>= f).Agrees c r c₂ := by
  unfold Agrees
  rw [bind_ok hm]
  exact hf

/-- A step that cannot fail may come behind. -/
theorem before {f : α → Check α} (hm : m.Agrees c r c₁) (hf : ∀ a, f a c₁ = .ok a c₂) :
    (m >>= f).Agrees c r c₂ := by
  rw [← bind_pure r]
  exact hm.bind hf

end Agrees

theorem pure_keeps (a : α) : (pure a : Check α).Keeps c (.ok a) := rfl

/-- A rule without a context leaves it as it was. -/
theorem judge_keeps : (judge r).Keeps c r := by
  cases r with
  | ok a => exact .ok rfl
  | error fault => exact .error rfl

/-- A name means in a context what it means in its surroundings. -/
theorem lookup_keeps (name : String) : (lookup name).Keeps c (c.env.lookup name) := by
  have hscopes : c.env.scopes.findSome? (·.find? name) = c.find? name := rfl
  unfold Env.lookup
  rw [hscopes]
  cases h : c.find? name with
  | some type =>
    have hrun : lookup name c = .ok type c := by simp only [lookup, h]
    exact .ok hrun
  | none =>
    have hrun : lookup name c = .error (.notDeclared name) c := by simp only [lookup, h]
    exact .error hrun

/-- A return asks for the result of the innermost body in both. -/
theorem resultType_keeps : resultType.Keeps c c.env.resultType := by
  obtain ⟨scope, outer, results⟩ := c
  cases results with
  | nil => exact .error rfl
  | cons result results => exact .ok rfl

/-- A name can be declared exactly if it is vacant, and is on top then. -/
theorem declare_agrees (name : String) (type : Ty) :
    (declare name type).Agrees c (c.env.vacant name) (c.declaring [(name, type)]) := by
  have hscope : c.env.scope = c.scope := rfl
  unfold Env.vacant
  rw [hscope]
  split
  · next hsome =>
    have hrun : declare name type c = .error (.alreadyDeclared name) c := by
      simp only [declare, Scope.declare, if_pos hsome]
    exact .error hrun
  · next hnone =>
    have hrun : declare name type c = .ok () (c.declaring [(name, type)]) := by
      simp only [declare, Scope.declare, if_neg hnone]
      rfl
    exact .ok hrun

/-- Declaring parameters ends with the scope that they build, or with the fault of the first that
repeats a name. -/
theorem declareParams_run : ∀ (params : List Param) (c : Context),
    match c.scope.declareAll (params.map Param.declaration) with
    | .ok scope => declareParams params c = .ok () { c with scope := scope }
    | .error fault => ∃ c', declareParams params c = .error fault c'
  | [], c => rfl
  | p :: params, c => by
    have hrun : declareParams (p :: params) =
        (do declare p.name p.type; declareParams params) := rfl
    rw [hrun, List.map_cons, Param.declaration, Scope.declareAll]
    cases h : c.scope.declare p.name p.type with
    | ok scope =>
      have hp : declare p.name p.type c = .ok () { c with scope := scope } := by
        simp only [declare, h]
      rw [bind_ok hp]
      exact declareParams_run params { c with scope := scope }
    | error fault =>
      have hp : declare p.name p.type c = .error fault c := by
        simp only [declare, h]
      exact ⟨c, bind_error hp⟩

/-! ## Blocks and bodies -/

/-- A block is checked in surroundings of its own, and nothing of it stays. -/
theorem inBlock_keeps {body : Check Unit} {r : Except Fault Unit} {scope : Scope}
    (h : body.Agrees c.block r { c.block with scope := scope }) : (inBlock body).Keeps c r :=
  .after rfl (h.before fun _ => rfl)

/-- A body is checked in the surroundings that its parameters make, and nothing of it stays. -/
theorem inBody_keeps {params : List Param} {result : Ty} {body : Check Unit}
    {rule : Env → Except Fault Unit} {declarations : List (String × Ty)}
    (h : ∀ scope, body.Agrees (c.body scope result) (rule (c.body scope result).env)
      ((c.body scope result).declaring declarations)) :
    (inBody params result body).Keeps c (c.env.body params result >>= rule) := by
  refine .after rfl (.after rfl ?_)
  -- The parameters may fail before the body is checked, and then they do so in the rule too.
  have hparams := declareParams_run params ⟨[], c.scopes, result :: c.results⟩
  rw [Env.body, Scope.ofList_eq, bind_assoc]
  split at hparams
  · next scope hscope =>
    rw [hscope]
    exact .after hparams ((h scope).before fun _ => rfl)
  · next fault hfault =>
    obtain ⟨c', hparams⟩ := hparams
    rw [hfault]
    exact .error (bind_error hparams)

end Check

open Check

/-! ## Checks of trees -/

mutual

/-- **Expressions**: the check of an expression has the outcome of its rule and leaves the context
as it was. The induction is one over all trees, for a closure has statements in it. -/
theorem Expr.check_keeps : ∀ (e : Expr) (c : Context), e.check.Keeps c (e.typeIn c.env)
  | .cond condition, c => by
    rw [Expr.check, Expr.typeIn]
    exact condition.check_keeps c
  | .add sum, c => by
    rw [Expr.check, Expr.typeIn]
    exact sum.check_keeps c
  | .array entries, c => by
    rw [Expr.check, Expr.typeIn]
    exact .bind (Exprs.check_keeps entries c) fun _ => judge_keeps
  | .closure params result body, c => by
    rw [Expr.check, Expr.typeIn]
    -- The defaults are checked out here, where neither the parameters nor the result are known.
    refine .bind (Params.check_keeps [] params c) fun _ => ?_
    rw [← bind_assoc]
    have hbody := fun scope => Stmts.check_agrees body (c.body scope result)
    exact .bind (inBody_keeps hbody) fun _ => pure_keeps _

theorem Exprs.check_keeps : ∀ (es : List Expr) (c : Context),
    (Exprs.check es).Keeps c (Exprs.typesIn c.env es)
  | [], c => by
    rw [Exprs.check, Exprs.typesIn]
    exact pure_keeps _
  | e :: es, c => by
    rw [Exprs.check, Exprs.typesIn]
    refine .bind (e.check_keeps c) fun _ => ?_
    exact .bind (Exprs.check_keeps es c) fun _ => pure_keeps _

/-- Checking the parameters of a closure changes nothing, and its defaults see what surrounds it. -/
theorem Params.check_keeps : ∀ (seen : List String) (params : List Param) (c : Context),
    (Params.check seen params).Keeps c (Params.checkIn c.env seen params)
  | _, [], c => by
    rw [Params.check, Params.checkIn]
    exact pure_keeps _
  | _, ⟨_, type, default?⟩ :: params, c => by
    rw [Params.check, Params.checkIn]
    refine .bind judge_keeps fun _ => ?_
    exact .bind (Default.check_keeps type default? c) fun _ => Params.check_keeps _ params c

theorem Default.check_keeps : ∀ (type : Ty) (default? : Option Expr) (c : Context),
    (Default.check type default?).Keeps c (Default.checkIn c.env type default?)
  | _, none, c => by
    rw [Default.check, Default.checkIn]
    exact pure_keeps _
  | _, some value, c => by
    rw [Default.check, Default.checkIn]
    exact .bind (value.check_keeps c) fun _ => judge_keeps

/-- The check of a condition agrees with its rule, side by side. -/
theorem Condition.check_keeps : ∀ (condition : Condition) (c : Context),
    condition.check.Keeps c (condition.typeIn c.env)
  | .single left _ right, c => by
    rw [Condition.check, Condition.typeIn]
    refine .bind (left.check_keeps c) fun _ => .bind (right.check_keeps c) fun _ => ?_
    exact .bind judge_keeps fun _ => pure_keeps _
  | .chain left _ right _ next, c => by
    rw [Condition.check, Condition.typeIn]
    refine .bind (left.check_keeps c) fun _ => .bind (right.check_keeps c) fun _ => ?_
    exact .bind judge_keeps fun _ => next.check_keeps c

theorem AddExpr.check_keeps : ∀ (sum : AddExpr) (c : Context),
    sum.check.Keeps c (sum.typeIn c.env)
  | .single term, c => by
    rw [AddExpr.check, AddExpr.typeIn]
    exact term.check_keeps c
  | .chain term _ next, c => by
    rw [AddExpr.check, AddExpr.typeIn]
    refine .bind (term.check_keeps c) fun _ => .bind (next.check_keeps c) fun _ => ?_
    exact .bind judge_keeps fun _ => pure_keeps _

theorem Term.check_keeps : ∀ (term : Term) (c : Context), term.check.Keeps c (term.typeIn c.env)
  | .single factor, c => by
    rw [Term.check, Term.typeIn]
    exact factor.check_keeps c
  | .chain factor _ next, c => by
    rw [Term.check, Term.typeIn]
    refine .bind (factor.check_keeps c) fun _ => .bind (next.check_keeps c) fun _ => ?_
    exact .bind judge_keeps fun _ => pure_keeps _

/-- The check of a factor agrees with its rule. Only lookups depend on the context. -/
theorem Factor.check_keeps : ∀ (factor : Factor) (c : Context),
    factor.check.Keeps c (factor.typeIn c.env)
  | .var name _, c => by
    rw [Factor.check, Factor.typeIn]
    exact .bind (lookup_keeps name) fun _ => judge_keeps
  | .call callee args, c => by
    rw [Factor.check, Factor.typeIn]
    refine .bind (lookup_keeps callee) fun _ => .bind judge_keeps fun (params, result) => ?_
    exact .bind (Args.check_keeps params args c) fun _ => pure_keeps _
  | .int _, c => by
    rw [Factor.check, Factor.typeIn]
    exact pure_keeps _
  | .float _, c => by
    rw [Factor.check, Factor.typeIn]
    exact pure_keeps _
  | .paren inner, c => by
    rw [Factor.check, Factor.typeIn]
    exact inner.check_keeps c

/-- Checking arguments agrees with the rule against the same parameters. -/
theorem Args.check_keeps : ∀ (params : List Param) (args : List Arg) (c : Context),
    (Args.check params args).Keeps c (Args.checkIn c.env params args)
  | _, [], c => by
    rw [Args.check, Args.checkIn]
    exact pure_keeps _
  | params, ⟨_, value⟩ :: args, c => by
    rw [Args.check, Args.checkIn]
    refine .bind (value.check_keeps c) fun _ => .bind judge_keeps fun _ => ?_
    exact Args.check_keeps params args c

/-- A statement adds what it declares to its scope. Blocks and bodies in it leave no trace. -/
theorem Stmt.check_agrees : ∀ (s : Stmt) (c : Context),
    s.check.Agrees c (s.checkIn c.env) (c.declaring s.declaration?.toList)
  | .ifThen condition body, c => by
    rw [Stmt.check, Stmt.checkIn]
    refine .bind (condition.check_keeps c) fun _ => ?_
    exact inBlock_keeps (Stmts.check_agrees body c.block)
  | .ifElse condition body otherwise, c => by
    rw [Stmt.check, Stmt.checkIn]
    refine .bind (condition.check_keeps c) fun _ => ?_
    refine .bind (inBlock_keeps (Stmts.check_agrees body c.block)) fun _ => ?_
    exact inBlock_keeps (Stmts.check_agrees otherwise c.block)
  | .loop condition body, c => by
    rw [Stmt.check, Stmt.checkIn]
    refine .bind (condition.check_keeps c) fun _ => ?_
    exact inBlock_keeps (Stmts.check_agrees body c.block)
  | .assign name value, c => by
    rw [Stmt.check, Stmt.checkIn]
    refine .bind (lookup_keeps name) fun _ => .bind (value.check_keeps c) fun _ => ?_
    exact judge_keeps
  | .ret value, c => by
    rw [Stmt.check, Stmt.checkIn]
    refine .bind resultType_keeps fun _ => .bind (value.check_keeps c) fun _ => ?_
    exact judge_keeps
  | .letVar name type value, c => by
    rw [Stmt.check, Stmt.checkIn]
    refine .bind (value.check_keeps c) fun _ => .bind judge_keeps fun _ => ?_
    exact declare_agrees name type
  | .letFun name params result body, c => by
    rw [Stmt.check, Stmt.checkIn, ← bind_assoc]
    have hbody := fun scope => Stmts.check_agrees body (c.body scope result)
    -- The body leaves the context as it was, so the name is declared in the scope in front of it.
    exact .bind (inBody_keeps hbody) fun _ => declare_agrees name _
  | .call callee args, c => by
    rw [Stmt.check, Stmt.checkIn]
    refine .bind (lookup_keeps callee) fun _ => .bind judge_keeps fun (params, _) => ?_
    exact Args.check_keeps params args c

/-- Checking statements adds what they declare, in order, and nothing else. -/
theorem Stmts.check_agrees : ∀ (body : List Stmt) (c : Context),
    (Stmts.check body).Agrees c (Stmts.checkIn c.env body) (c.declaring (Stmts.declarations body))
  | [], c => by
    rw [Stmts.check, Stmts.checkIn]
    exact pure_keeps _
  | s :: rest, c => by
    rw [Stmts.check, Stmts.checkIn, Stmts.declarations_cons, ← c.declaring_declaring,
      ← c.env_declaring]
    -- What the statement declares is in scope for the rest.
    refine .bind (s.check_agrees c) fun _ => ?_
    exact Stmts.check_agrees rest (c.declaring s.declaration?.toList)

end

/-! ## The refinement -/

namespace Check

variable {α : Type}

/-- The result of a check without the context it ends in. -/
def outcome (m : Check α) (c : Context) : Except Fault α :=
  match m c with
  | .ok a _ => .ok a
  | .error fault _ => .error fault

/-- A check that agrees with a rule has its outcome. -/
theorem Agrees.outcome_eq {m : Check α} {c stop : Context} {r : Except Fault α}
    (h : m.Agrees c r stop) : m.outcome c = r := by
  unfold outcome
  cases r with
  | ok a =>
    have hrun : m c = .ok a stop := h
    rw [hrun]
  | error fault =>
    obtain ⟨c', hrun⟩ : ∃ c', m c = .error fault c' := h
    rw [hrun]

end Check

/-- The context behind a program without a fault: what it declares on its outermost level. -/
def Program.finalContext (program : Program) : Context :=
  Context.initial.declaring (Stmts.declarations program.body)

/-- A program is checked as its lexical rules say, and ends with its own declarations. -/
theorem Program.check_eq (program : Program) :
    program.check = program.checkLexically.map fun _ => program.finalContext := by
  have h := Stmts.check_agrees program.body .initial
  unfold Program.check Program.checkLexically
  change (Stmts.check program.body).Agrees _ (Stmts.checkIn .initial program.body) _ at h
  cases hrule : Stmts.checkIn .initial program.body with
  | ok _ =>
    rw [hrule] at h
    have hrun : Stmts.check program.body .initial = .ok () program.finalContext := h
    rw [hrun]
    rfl
  | error fault =>
    rw [hrule] at h
    obtain ⟨c', hrun⟩ := h
    rw [hrun]
    rfl

/-- **Refinement**: from every context, checking an expression, a statement or a block ends with
the type or the first fault of the lexical rules, and checking a program does so from the initial
one. -/
theorem check_refines_lexical :
    (∀ (e : Expr) (c : Context), e.check.outcome c = e.typeIn c.env) ∧
    (∀ (s : Stmt) (c : Context), s.check.outcome c = s.checkIn c.env) ∧
    (∀ (body : List Stmt) (c : Context),
      (inBlock (Stmts.check body)).outcome c = Stmts.checkIn c.env.block body) ∧
    (∀ program : Program,
      program.check = program.checkLexically.map fun _ => program.finalContext) := by
  refine ⟨fun e c => ?_, fun s c => ?_, fun body c => ?_, Program.check_eq⟩
  · exact (e.check_keeps c).outcome_eq
  · exact (s.check_agrees c).outcome_eq
  · have hbody := Stmts.check_agrees body c.block
    exact (inBlock_keeps hbody).outcome_eq

end FrontEnd
