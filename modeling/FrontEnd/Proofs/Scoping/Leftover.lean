import FrontEnd.Proofs.Scoping.Frame

/-!
# What a failed check leaves behind

A fault ends a check on the spot, and what was open stays open. The context then still has all that
it had, and on top of it one scope for every block and body that was entered and not left.

- `Expr.unfinished`, `Stmt.unfinished` and their like: the blocks and bodies around the first fault
  of a tree, by the lexical rules alone.
- `Context.Entered`: a context with the scopes and result types of some blocks and bodies on top.
- `Expr.check_fails`, `Stmt.check_fails`, `Stmts.check_fails`: a fault leaves those on top that it
  stands in.
-/

namespace FrontEnd

open Check

/-! ## The blocks and bodies around a fault -/

/-- Where statements stand in a scope of their own: in a block, or in the body of a function with
its result type. -/
inductive Frame where
  | block
  | body (result : Ty)

/-- The result type that is due in a body. -/
def Frame.result? : Frame → Option Ty
  | block => none
  | body result => some result

/-- What is open at the first fault of `r` and what comes behind it: `frames` if `r` has a fault. -/
def atFault {α : Type} (r : Except Fault α) (frames : List Frame) (next : α → List Frame) :
    List Frame :=
  match r with
  | .ok a => next a
  | .error _ => frames

mutual

/-- The blocks and bodies around the first fault of an expression, outermost first. Without a fault
there is nothing to say. -/
def Expr.unfinished (env : Env) : Expr → List Frame
  | .cond condition => condition.unfinished env
  | .add sum => sum.unfinished env
  | .array entries =>
    atFault (Exprs.typesIn env entries) (Exprs.unfinished env entries) fun _ => []
  | .closure params result body =>
    atFault (Params.checkIn env [] params) (Params.unfinished env [] params) fun _ =>
    .body result :: atFault (env.body params result) [] fun inner =>
    Stmts.unfinished inner body

/-- The frames around the first fault in several expressions. -/
def Exprs.unfinished (env : Env) : List Expr → List Frame
  | [] => []
  | e :: es =>
    atFault (e.typeIn env) (e.unfinished env) fun _ =>
    Exprs.unfinished env es

/-- The frames around the first fault in parameters: those in a default. -/
def Params.unfinished (env : Env) (seen : List String) : List Param → List Frame
  | [] => []
  | ⟨name, type, default?⟩ :: params =>
    atFault (Typing.newParam seen name) [] fun _ =>
    atFault (Default.checkIn env type default?) (Default.unfinished env default?) fun _ =>
    Params.unfinished env (name :: seen) params

def Default.unfinished (env : Env) : Option Expr → List Frame
  | none => []
  | some value => atFault (value.typeIn env) (value.unfinished env) fun _ => []

/-- The frames around the first fault in a condition. -/
def Condition.unfinished (env : Env) : Condition → List Frame
  | .single left _ right =>
    atFault (left.typeIn env) (left.unfinished env) fun _ =>
    atFault (right.typeIn env) (right.unfinished env) fun _ => []
  | .chain left relop right _ next =>
    atFault (left.typeIn env) (left.unfinished env) fun leftType =>
    atFault (right.typeIn env) (right.unfinished env) fun rightType =>
    atFault (Typing.comparable leftType relop rightType) [] fun _ =>
    next.unfinished env

def AddExpr.unfinished (env : Env) : AddExpr → List Frame
  | .single term => term.unfinished env
  | .chain term _ next =>
    atFault (term.typeIn env) (term.unfinished env) fun _ =>
    atFault (next.typeIn env) (next.unfinished env) fun _ => []

def Term.unfinished (env : Env) : Term → List Frame
  | .single factor => factor.unfinished env
  | .chain factor _ next =>
    atFault (factor.typeIn env) (factor.unfinished env) fun _ =>
    atFault (next.typeIn env) (next.unfinished env) fun _ => []

/-- The frames around the first fault in a factor: those in its arguments or its inner
expression. -/
def Factor.unfinished (env : Env) : Factor → List Frame
  | .var _ _ | .int _ | .float _ => []
  | .call callee args =>
    atFault (env.lookup callee) [] fun declared =>
    atFault (Typing.signature callee declared args) [] fun (params, _) =>
    Args.unfinished env params args
  | .paren inner => inner.unfinished env

/-- The frames around the first fault in arguments. -/
def Args.unfinished (env : Env) (params : List Param) : List Arg → List Frame
  | [] => []
  | ⟨name, value⟩ :: args =>
    atFault (value.typeIn env) (value.unfinished env) fun received =>
    atFault (Typing.argument params name received) [] fun _ =>
    Args.unfinished env params args

/-- The blocks and bodies around the first fault of a statement, outermost first. A name that is
declared twice is a fault behind the body of a function, but the name of a parameter one in it. -/
def Stmt.unfinished (env : Env) : Stmt → List Frame
  | .ifThen condition body =>
    atFault (condition.typeIn env) (condition.unfinished env) fun _ =>
    .block :: Stmts.unfinished env.block body
  | .ifElse condition body otherwise =>
    atFault (condition.typeIn env) (condition.unfinished env) fun _ =>
    atFault (Stmts.checkIn env.block body) (.block :: Stmts.unfinished env.block body) fun _ =>
    .block :: Stmts.unfinished env.block otherwise
  | .loop condition body =>
    atFault (condition.typeIn env) (condition.unfinished env) fun _ =>
    .block :: Stmts.unfinished env.block body
  | .assign name value =>
    atFault (env.lookup name) [] fun _ =>
    atFault (value.typeIn env) (value.unfinished env) fun _ => []
  | .ret value =>
    atFault env.resultType [] fun _ =>
    atFault (value.typeIn env) (value.unfinished env) fun _ => []
  | .letVar _ _ value =>
    atFault (value.typeIn env) (value.unfinished env) fun _ => []
  | .letFun _ params result body =>
    atFault (env.body params result >>= fun inner => Stmts.checkIn inner body)
      (.body result :: atFault (env.body params result) [] fun inner =>
        Stmts.unfinished inner body)
      fun _ => []
  | .call callee args =>
    atFault (env.lookup callee) [] fun declared =>
    atFault (Typing.signature callee declared args) [] fun (params, _) =>
    Args.unfinished env params args

/-- The frames around the first fault in statements. -/
def Stmts.unfinished (env : Env) : List Stmt → List Frame
  | [] => []
  | s :: rest =>
    atFault (s.checkIn env) (s.unfinished env) fun _ =>
    Stmts.unfinished (env.extend s.declaration?) rest

end

/-! ## Contexts with something on top -/

namespace Scope

/-- What the one scope declares, the other declares with the same type. -/
def Within (scope extended : Scope) : Prop :=
  ∀ name type, scope.find? name = some type → extended.find? name = some type

/-- A scope extends itself by nothing. -/
theorem Within.refl (scope : Scope) : scope.Within scope :=
  fun _ _ h => h

/-- An extension of an extension is one. -/
theorem Within.trans {s t u : Scope} (hst : s.Within t) (htu : t.Within u) : s.Within u :=
  fun name type h => htu name type (hst name type h)

/-- A new name hides none. -/
theorem Within.cons {scope : Scope} {name : String} {type : Ty} (h : scope.find? name = none) :
    scope.Within ((name, type) :: scope) := by
  intro other received hother
  rw [find?_cons, if_neg]
  · exact hother
  · rintro rfl
    cases h.symm.trans hother

end Scope

namespace Context

variable {c c₁ stop : Context} {frames : List Frame}

/-- `stop` is `c` with a scope on top for each of the frames, and with the result types of those
that are bodies. The frames are listed from the outside inwards. -/
def Entered (c : Context) (frames : List Frame) (stop : Context) : Prop :=
  ∃ inner : List Scope, inner.length = frames.length ∧ stop.scopes = inner ++ c.scopes ∧
    stop.results = (frames.filterMap Frame.result?).reverse ++ c.results

/-- A context has entered nothing with respect to itself. -/
theorem Entered.refl (c : Context) : c.Entered [] c :=
  ⟨[], rfl, rfl, rfl⟩

/-- What is on top of the context inside a frame is on top of the frame. -/
theorem Entered.enter {frame : Frame} (h : c₁.Entered frames stop) (houter : c₁.outer = c.scopes)
    (hresults : c₁.results = frame.result?.toList ++ c.results) :
    c.Entered (frame :: frames) stop := by
  obtain ⟨inner, hlength, hscopes, hstop⟩ := h
  refine ⟨inner ++ [c₁.scope], ?_, ?_, ?_⟩
  · rw [List.length_append, hlength]
    rfl
  · rw [hscopes, scopes, houter, List.append_assoc]
    rfl
  · rw [hstop, hresults]
    cases frame with
    | block => rfl
    | body result =>
      simp only [List.filterMap_cons, Frame.result?, List.reverse_cons, List.append_assoc,
        Option.toList]

end Context

/-! ## The context behind a fault -/

namespace Check

variable {α β : Type} {m : Check α} {f : α → Check β} {c : Context}

/-- If the check fails from `c`, the context that it leaves satisfies `Q`. -/
def Fails (m : Check α) (c : Context) (Q : Context → Prop) : Prop :=
  match m c with
  | .ok _ _ => True
  | .error _ stop => Q stop

/-- A success leaves nothing to show about a fault. -/
theorem Fails.of_ok {a : α} {stop : Context} {Q : Context → Prop} (h : m c = .ok a stop) :
    m.Fails c Q := by
  unfold Fails
  rw [h]
  trivial

/-- A fault that leaves a good context. -/
theorem Fails.of_error {fault : Fault} {stop : Context} {Q : Context → Prop}
    (h : m c = .error fault stop) (hQ : Q stop) : m.Fails c Q := by
  unfold Fails
  rw [h]
  exact hQ

/-- The context behind a fault is as promised. -/
theorem Fails.elim {fault : Fault} {stop : Context} {Q : Context → Prop} (h : m.Fails c Q)
    (hrun : m c = .error fault stop) : Q stop := by
  unfold Fails at h
  rw [hrun] at h
  exact h

/-- Less may be promised of the context behind a fault. -/
theorem Fails.mono {Q Q' : Context → Prop} (h : m.Fails c Q) (hQ : ∀ stop, Q stop → Q' stop) :
    m.Fails c Q' := by
  cases hrun : m c with
  | ok a stop => exact .of_ok hrun
  | error fault stop => exact .of_error hrun (hQ stop (h.elim hrun))

/-- Behind a success, a sequence fails as its second part does. -/
theorem Fails.bind_of_ok {a : α} {stop : Context} {Q : Context → Prop} (hm : m c = .ok a stop)
    (hf : (f a).Fails stop Q) : (m >>= f).Fails c Q := by
  unfold Fails
  rw [bind_ok hm]
  exact hf

/-- A fault of the first part leaves what it leaves, and otherwise the context is as it was. -/
theorem Fails.bind {r : Except Fault α} {frames : List Frame} {next : α → List Frame}
    (hkeeps : m.Keeps c r) (hm : m.Fails c (c.Entered frames))
    (hf : ∀ a, (f a).Fails c (c.Entered (next a))) :
    (m >>= f).Fails c (c.Entered (atFault r frames next)) := by
  cases r with
  | ok a =>
    have hrun : m c = .ok a c := hkeeps
    exact .bind_of_ok hrun (hf a)
  | error fault =>
    obtain ⟨stop, hrun⟩ : ∃ stop, m c = .error fault stop := hkeeps
    exact .of_error (bind_error hrun) (hm.elim hrun)

/-- Where neither part opens anything, nothing is open at a fault. -/
theorem Fails.bind_nil {r : Except Fault α} (hkeeps : m.Keeps c r)
    (hm : m.Fails c (c.Entered [])) (hf : ∀ a, (f a).Fails c (c.Entered [])) :
    (m >>= f).Fails c (c.Entered []) := by
  have h := Fails.bind hkeeps hm hf
  cases r with
  | ok a => exact h
  | error fault => exact h

/-- Making something of an answer has no fault of its own. -/
theorem Fails.map {g : α → β} {Q : Context → Prop} (hm : m.Fails c Q) :
    (do return g (← m) : Check β).Fails c Q := by
  cases hrun : m c with
  | ok a stop => exact .bind_of_ok hrun (.of_ok rfl)
  | error fault stop => exact .of_error (bind_error hrun) (hm.elim hrun)

theorem pure_fails {a : α} {Q : Context → Prop} : (pure a : Check α).Fails c Q :=
  .of_ok rfl

/-- A rule without a context fails where it stands. -/
theorem judge_fails {r : Except Fault α} : (judge r).Fails c (c.Entered []) := by
  cases r with
  | ok a => exact .of_ok rfl
  | error fault => exact .of_error rfl (.refl c)

/-- A rule of the types alone opens nothing. -/
theorem Fails.judge_bind {r : Except Fault α} {next : α → List Frame}
    (hf : ∀ a, (f a).Fails c (c.Entered (next a))) :
    (judge r >>= f).Fails c (c.Entered (atFault r [] next)) :=
  .bind judge_keeps judge_fails hf

/-- An unknown name fails where it stands. -/
theorem lookup_fails {name : String} : (lookup name).Fails c (c.Entered []) := by
  cases h : c.find? name with
  | some type =>
    have hrun : lookup name c = .ok type c := by simp only [lookup, h]
    exact .of_ok hrun
  | none =>
    have hrun : lookup name c = .error (.notDeclared name) c := by simp only [lookup, h]
    exact .of_error hrun (.refl c)

/-- A sequence that begins with a name fails at the name, or behind it. -/
theorem Fails.lookup_bind {name : String} {f : Ty → Check β} {next : Ty → List Frame}
    (hf : ∀ a, (f a).Fails c (c.Entered (next a))) :
    (lookup name >>= f).Fails c (c.Entered (atFault (c.env.lookup name) [] next)) :=
  .bind (lookup_keeps name) lookup_fails hf

/-- A return outside of bodies fails where it stands. -/
theorem resultType_fails : resultType.Fails c (c.Entered []) := by
  obtain ⟨scope, outer, _ | ⟨result, results⟩⟩ := c
  · exact .of_error rfl (.refl _)
  · exact .of_ok rfl

/-- A repeated name fails where it stands, with its scope as it was. -/
theorem declare_fails {name : String} {type : Ty} :
    (declare name type).Fails c (c.Entered []) := by
  cases h : c.scope.declare name type with
  | ok scope =>
    have hrun : declare name type c = .ok () { c with scope := scope } := by
      simp only [declare, h]
    exact .of_ok hrun
  | error fault =>
    have hrun : declare name type c = .error fault c := by simp only [declare, h]
    exact .of_error hrun (.refl c)

/-- Parameters are declared in the innermost scope, and that alone changes until one is repeated. -/
theorem declareParams_fails : ∀ (params : List Param) (c : Context),
    (declareParams params).Fails c fun stop => ∃ scope, stop = { c with scope := scope }
  | [], _ => pure_fails
  | p :: params, c => by
    have hrun : declareParams (p :: params) =
        (do declare p.name p.type; declareParams params) := rfl
    rw [hrun]
    cases h : c.scope.declare p.name p.type with
    | ok scope =>
      have hp : declare p.name p.type c = .ok () { c with scope := scope } := by
        simp only [declare, h]
      exact .bind_of_ok hp (declareParams_fails params { c with scope := scope })
    | error fault =>
      have hp : declare p.name p.type c = .error fault c := by simp only [declare, h]
      exact .of_error (bind_error hp) ⟨c.scope, rfl⟩

/-- What statements have declared before a fault is in the scope around it. -/
def FailsBehind (m : Check α) (c : Context) (frames : List Frame) : Prop :=
  m.Fails c fun stop =>
    ∃ scope, c.scope.Within scope ∧ ({ c with scope := scope } : Context).Entered frames stop

/-- A fault in a block leaves the block open, with whatever was open in it. -/
theorem inBlock_fails {body : Check Unit} {r : Except Fault Unit} {scope : Scope}
    {frames : List Frame} (hagrees : body.Agrees c.block r { c.block with scope := scope })
    (hbody : body.FailsBehind c.block frames) :
    (inBlock body).Fails c (c.Entered (.block :: frames)) := by
  refine .bind_of_ok rfl ?_
  cases r with
  | ok _ =>
    have hrun : body c.block = .ok () { c.block with scope := scope } := hagrees
    exact .bind_of_ok hrun (.of_ok rfl)
  | error fault =>
    obtain ⟨stop, hrun⟩ : ∃ stop, body c.block = .error fault stop := hagrees
    obtain ⟨scope', -, hstop⟩ := hbody.elim hrun
    have hentered : c.Entered (.block :: frames) stop := hstop.enter rfl rfl
    exact .of_error (bind_error hrun) hentered

/-- The parameters may fail where the body is entered already. -/
theorem inBody_fails {params : List Param} {result : Ty} {body : Check Unit}
    (rule : Env → Except Fault Unit) (frames : Env → List Frame)
    {declarations : List (String × Ty)}
    (hagrees : ∀ scope, body.Agrees (c.body scope result) (rule (c.body scope result).env)
      ((c.body scope result).declaring declarations))
    (hbody : ∀ scope, body.FailsBehind (c.body scope result) (frames (c.body scope result).env)) :
    (inBody params result body).Fails c
      (c.Entered (.body result :: atFault (c.env.body params result) [] frames)) := by
  refine .bind_of_ok rfl (.bind_of_ok rfl ?_)
  have hparams := declareParams_run params ⟨[], c.scopes, result :: c.results⟩
  have hclash := declareParams_fails params ⟨[], c.scopes, result :: c.results⟩
  rw [Env.body, Scope.ofList_eq]
  split at hparams
  · next scope hscope =>
    rw [hscope]
    -- The parameters are declared, so a fault is one of the statements.
    refine .bind_of_ok hparams ?_
    have hruns := hagrees scope
    cases hrule : rule (c.body scope result).env with
    | ok _ =>
      rw [hrule] at hruns
      exact .bind_of_ok hruns (.bind_of_ok rfl (.of_ok rfl))
    | error fault =>
      rw [hrule] at hruns
      obtain ⟨stop, hrun⟩ := hruns
      obtain ⟨scope', -, hstop⟩ := (hbody scope).elim hrun
      have hentered : c.Entered (.body result :: frames (c.body scope result).env) stop :=
        hstop.enter rfl rfl
      exact .of_error (bind_error hrun) hentered
  · next fault hfault =>
    -- A repeated parameter is noticed inside the body, before any statement.
    obtain ⟨stop, hrun⟩ := hparams
    obtain ⟨scope, rfl⟩ := hclash.elim hrun
    rw [hfault]
    have hentered : c.Entered [.body result] ⟨scope, c.scopes, result :: c.results⟩ :=
      (Context.Entered.refl _).enter rfl rfl
    exact .of_error (bind_error hrun) hentered

end Check

/-! ## Checks of trees -/

/-- A statement without a fault keeps what its scope declares. -/
theorem Stmt.scope_within (s : Stmt) {c : Context} (h : s.checkIn c.env = .ok ()) :
    c.scope.Within (c.declaring s.declaration?.toList).scope := by
  cases hs : s.declaration? with
  | none => exact .refl c.scope
  | some declaration => exact .cons (Stmt.find?_of_checkIn h hs)

mutual

/-- A fault in an expression leaves what it stands in, and nothing else changes. -/
theorem Expr.check_fails : ∀ (e : Expr) (c : Context),
    e.check.Fails c (c.Entered (e.unfinished c.env))
  | .cond condition, c => by
    rw [Expr.check, Expr.unfinished]
    exact condition.check_fails c
  | .add sum, c => by
    rw [Expr.check, Expr.unfinished]
    exact sum.check_fails c
  | .array entries, c => by
    rw [Expr.check, Expr.unfinished]
    exact .bind (Exprs.check_keeps entries c) (Exprs.check_fails entries c) fun _ => judge_fails
  | .closure params result body, c => by
    rw [Expr.check, Expr.unfinished]
    refine .bind (Params.check_keeps [] params c) (Params.check_fails [] params c) fun _ => ?_
    have hagrees := fun scope => Stmts.check_agrees body (c.body scope result)
    have hfails := fun scope => Stmts.check_fails body (c.body scope result)
    exact (inBody_fails (fun env => Stmts.checkIn env body) (fun env => Stmts.unfinished env body)
      hagrees hfails).map

/-- A fault in one of several expressions leaves its frames. -/
theorem Exprs.check_fails : ∀ (es : List Expr) (c : Context),
    (Exprs.check es).Fails c (c.Entered (Exprs.unfinished c.env es))
  | [], c => by
    rw [Exprs.check]
    exact pure_fails
  | e :: es, c => by
    rw [Exprs.check, Exprs.unfinished]
    refine .bind (e.check_keeps c) (e.check_fails c) fun _ => ?_
    exact (Exprs.check_fails es c).map

/-- A fault in parameters leaves the frames of the default that has it, and the body of the closure
unentered. -/
theorem Params.check_fails : ∀ (seen : List String) (params : List Param) (c : Context),
    (Params.check seen params).Fails c (c.Entered (Params.unfinished c.env seen params))
  | _, [], c => by
    rw [Params.check]
    exact pure_fails
  | _, ⟨_, type, default?⟩ :: params, c => by
    rw [Params.check, Params.unfinished]
    refine .judge_bind fun _ => ?_
    exact .bind (Default.check_keeps type default? c) (Default.check_fails type default? c)
      fun _ => Params.check_fails _ params c

theorem Default.check_fails : ∀ (type : Ty) (default? : Option Expr) (c : Context),
    (Default.check type default?).Fails c (c.Entered (Default.unfinished c.env default?))
  | _, none, c => by
    rw [Default.check]
    exact pure_fails
  | _, some value, c => by
    rw [Default.check, Default.unfinished]
    exact .bind (value.check_keeps c) (value.check_fails c) fun _ => judge_fails

theorem Condition.check_fails : ∀ (condition : Condition) (c : Context),
    condition.check.Fails c (c.Entered (condition.unfinished c.env))
  | .single left _ right, c => by
    rw [Condition.check, Condition.unfinished]
    refine .bind (left.check_keeps c) (left.check_fails c) fun _ => ?_
    exact .bind (right.check_keeps c) (right.check_fails c) fun _ => judge_fails.map
  | .chain left _ right _ next, c => by
    rw [Condition.check, Condition.unfinished]
    refine .bind (left.check_keeps c) (left.check_fails c) fun _ => ?_
    refine .bind (right.check_keeps c) (right.check_fails c) fun _ => ?_
    exact .judge_bind fun _ => next.check_fails c

theorem AddExpr.check_fails : ∀ (sum : AddExpr) (c : Context),
    sum.check.Fails c (c.Entered (sum.unfinished c.env))
  | .single term, c => by
    rw [AddExpr.check, AddExpr.unfinished]
    exact term.check_fails c
  | .chain term _ next, c => by
    rw [AddExpr.check, AddExpr.unfinished]
    refine .bind (term.check_keeps c) (term.check_fails c) fun _ => ?_
    exact .bind (next.check_keeps c) (next.check_fails c) fun _ => judge_fails.map

theorem Term.check_fails : ∀ (term : Term) (c : Context),
    term.check.Fails c (c.Entered (term.unfinished c.env))
  | .single factor, c => by
    rw [Term.check, Term.unfinished]
    exact factor.check_fails c
  | .chain factor _ next, c => by
    rw [Term.check, Term.unfinished]
    refine .bind (factor.check_keeps c) (factor.check_fails c) fun _ => ?_
    exact .bind (next.check_keeps c) (next.check_fails c) fun _ => judge_fails.map

/-- A fault in a factor leaves the frames of the part that has it. -/
theorem Factor.check_fails : ∀ (factor : Factor) (c : Context),
    factor.check.Fails c (c.Entered (factor.unfinished c.env))
  | .var name _, c => by
    rw [Factor.check]
    exact .bind_nil (lookup_keeps name) lookup_fails fun _ => judge_fails
  | .call callee args, c => by
    rw [Factor.check, Factor.unfinished]
    refine .lookup_bind fun _ => .judge_bind fun (params, result) => ?_
    exact (Args.check_fails params args c).map
  | .int _, c => by
    rw [Factor.check]
    exact pure_fails
  | .float _, c => by
    rw [Factor.check]
    exact pure_fails
  | .paren inner, c => by
    rw [Factor.check, Factor.unfinished]
    exact inner.check_fails c

/-- A fault in one of several arguments leaves its frames. -/
theorem Args.check_fails : ∀ (params : List Param) (args : List Arg) (c : Context),
    (Args.check params args).Fails c (c.Entered (Args.unfinished c.env params args))
  | _, [], c => by
    rw [Args.check]
    exact pure_fails
  | params, ⟨_, value⟩ :: args, c => by
    rw [Args.check, Args.unfinished]
    refine .bind (value.check_keeps c) (value.check_fails c) fun _ => ?_
    exact .judge_bind fun _ => Args.check_fails params args c

/-- A fault in a statement leaves what it stands in. The statement itself has declared nothing. -/
theorem Stmt.check_fails : ∀ (s : Stmt) (c : Context),
    s.check.Fails c (c.Entered (s.unfinished c.env))
  | .ifThen condition body, c => by
    rw [Stmt.check, Stmt.unfinished]
    refine .bind (condition.check_keeps c) (condition.check_fails c) fun _ => ?_
    exact inBlock_fails (Stmts.check_agrees body c.block) (Stmts.check_fails body c.block)
  | .ifElse condition body otherwise, c => by
    rw [Stmt.check, Stmt.unfinished]
    refine .bind (condition.check_keeps c) (condition.check_fails c) fun _ => ?_
    have hbody := Stmts.check_agrees body c.block
    refine .bind (inBlock_keeps hbody) (inBlock_fails hbody (Stmts.check_fails body c.block))
      fun _ => ?_
    exact inBlock_fails (Stmts.check_agrees otherwise c.block)
      (Stmts.check_fails otherwise c.block)
  | .loop condition body, c => by
    rw [Stmt.check, Stmt.unfinished]
    refine .bind (condition.check_keeps c) (condition.check_fails c) fun _ => ?_
    exact inBlock_fails (Stmts.check_agrees body c.block) (Stmts.check_fails body c.block)
  | .assign name value, c => by
    rw [Stmt.check, Stmt.unfinished]
    refine .lookup_bind fun _ => ?_
    exact .bind (value.check_keeps c) (value.check_fails c) fun _ => judge_fails
  | .ret value, c => by
    rw [Stmt.check, Stmt.unfinished]
    refine .bind resultType_keeps resultType_fails fun _ => ?_
    exact .bind (value.check_keeps c) (value.check_fails c) fun _ => judge_fails
  | .letVar name type value, c => by
    rw [Stmt.check, Stmt.unfinished]
    refine .bind (value.check_keeps c) (value.check_fails c) fun _ => ?_
    exact .bind_nil judge_keeps judge_fails fun _ => declare_fails
  | .letFun name params result body, c => by
    rw [Stmt.check, Stmt.unfinished]
    have hagrees := fun scope => Stmts.check_agrees body (c.body scope result)
    have hfails := fun scope => Stmts.check_fails body (c.body scope result)
    refine .bind (inBody_keeps hagrees) ?_ fun _ => declare_fails
    exact inBody_fails (fun env => Stmts.checkIn env body) (fun env => Stmts.unfinished env body)
      hagrees hfails
  | .call callee args, c => by
    rw [Stmt.check, Stmt.unfinished]
    refine .lookup_bind fun _ => .judge_bind fun (params, _) => ?_
    exact Args.check_fails params args c

/-- What the statements in front of a fault have declared stays in the scope around it. -/
theorem Stmts.check_fails : ∀ (body : List Stmt) (c : Context),
    (Stmts.check body).FailsBehind c (Stmts.unfinished c.env body)
  | [], c => by
    rw [Stmts.check]
    exact pure_fails
  | s :: rest, c => by
    rw [Stmts.check, Stmts.unfinished]
    have hagrees := s.check_agrees c
    have hfails := s.check_fails c
    cases hrule : s.checkIn c.env with
    | ok _ =>
      rw [hrule] at hagrees
      -- The rest runs in front of what the statement declares, which is new in the scope.
      have hrest := Stmts.check_fails rest (c.declaring s.declaration?.toList)
      rw [Context.env_declaring] at hrest
      refine .bind_of_ok hagrees (hrest.mono ?_)
      rintro stop ⟨scope, hscope, hstop⟩
      exact ⟨scope, (s.scope_within hrule).trans hscope, hstop⟩
    | error fault =>
      rw [hrule] at hagrees
      obtain ⟨stop, hrun⟩ := hagrees
      exact .of_error (bind_error hrun) ⟨c.scope, .refl c.scope, hfails.elim hrun⟩

end

end FrontEnd
