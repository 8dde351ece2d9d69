import FrontEnd.Proofs.Scoping.Frame

/-!
# Checked sites

A check does not come to every place of a program: indices, the defaults of declared functions and
the defaults inside type annotations are never looked at. The other places are its checked sites.

- `Site`: a part of a program together with what surrounds it.
- `Env.Holds`: all types that surround a part have a property.
- `Expr.sites`, `Stmt.sites`, `Program.sites`: the checked sites in a tree, which is one itself.
- `Program.sites_accepted`: in a program without a fault, no checked site has a fault where it
  stands. What an accepted program guarantees of a part is read off the rule for that part alone.
-/

namespace FrontEnd

/-- A part of a program that has a rule of its own. -/
inductive Part where
  | expr (e : Expr)
  | condition (condition : Condition)
  | sum (sum : AddExpr)
  | term (term : Term)
  | factor (factor : Factor)
  | stmt (s : Stmt)

/-- A part of a program and what surrounds it. -/
structure Site where
  env : Env
  part : Part

/-- Whether a part has no fault in its surroundings. -/
def Site.Accepted : Site → Prop
  | ⟨env, .expr e⟩ => ∃ type, e.typeIn env = .ok type
  | ⟨env, .condition condition⟩ => ∃ type, condition.typeIn env = .ok type
  | ⟨env, .sum sum⟩ => ∃ type, sum.typeIn env = .ok type
  | ⟨env, .term term⟩ => ∃ type, term.typeIn env = .ok type
  | ⟨env, .factor factor⟩ => ∃ type, factor.typeIn env = .ok type
  | ⟨env, .stmt s⟩ => s.checkIn env = .ok ()

/-! ## Bodies -/

/-- What surrounds the statements of a body whose parameters have different names. -/
def Env.inside (env : Env) (params : List Param) (result : Ty) : Env :=
  ⟨(params.map Param.declaration).reverse, env.scopes, some result⟩

/-- The declarations of parameters are under their names. -/
theorem Params.map_declaration (params : List Param) :
    (params.map Param.declaration).map Prod.fst = params.map Param.name :=
  List.map_map ..

/-- Declarations that succeed are all there, the latest first. -/
theorem Scope.declareAll_eq_ok : ∀ (declarations : List (String × Ty)) {scope extended : Scope},
    scope.declareAll declarations = .ok extended → extended = declarations.reverse ++ scope
  | [], scope, extended, h => by
    cases h
    rfl
  | (name, type) :: declarations, scope, extended, h => by
    rw [Scope.declareAll] at h
    obtain ⟨next, hnext, h⟩ := exists_ok_of_bind h
    obtain ⟨-, rfl⟩ := Scope.declare_eq_ok_iff.1 hnext
    rw [declareAll_eq_ok declarations h, List.reverse_cons, List.append_assoc]
    rfl

/-- A body that can be entered is entered with its parameters on top. -/
theorem Env.body_eq_ok {env inner : Env} {params : List Param} {result : Ty}
    (h : env.body params result = .ok inner) : inner = env.inside params result := by
  rw [Env.body, Scope.ofList_eq] at h
  obtain ⟨scope, hscope, h⟩ := exists_ok_of_bind h
  have heq := Scope.declareAll_eq_ok _ hscope
  rw [List.append_nil] at heq
  cases h
  rw [heq]
  rfl

/-! ## Types that surround a tree -/

/-- Whether all types that surround a tree have a property. -/
structure Env.Holds (Good : Ty → Prop) (env : Env) : Prop where
  declared : ∀ scope ∈ env.scopes, ∀ declaration ∈ scope, Good declaration.2
  result : ∀ result ∈ env.result?, Good result

namespace Env.Holds

variable {Good : Ty → Prop} {env : Env}

/-- A property of the built-in types holds around a program. -/
theorem initial (h : ∀ declaration ∈ Scope.builtIns, Good declaration.2) :
    initial.Holds Good where
  declared := List.forall_mem_singleton.2 h
  result := nofun

/-- A weaker property holds where a stronger one does. -/
theorem imp {Better : Ty → Prop} (h : env.Holds Good) (himp : ∀ t, Good t → Better t) :
    env.Holds Better where
  declared scope hscope declaration hmem := himp _ (h.declared scope hscope declaration hmem)
  result result hresult := himp _ (h.result result hresult)

/-- What a name means has the property. -/
theorem lookup (h : env.Holds Good) {name : String} {type : Ty}
    (htype : env.lookup name = .ok type) : Good type := by
  obtain ⟨scope, hscope, hmem⟩ := Env.exists_of_lookup htype
  exact h.declared scope hscope (name, type) hmem

/-- Opening a block adds no type. -/
theorem block (h : env.Holds Good) : env.block.Holds Good where
  declared := List.forall_mem_cons.2 ⟨List.forall_mem_nil _, h.declared⟩
  result := h.result

/-- A declaration keeps the property if its own type has it. -/
theorem extend (h : env.Holds Good) {declaration? : Option (String × Ty)}
    (hd : ∀ declaration ∈ declaration?, Good declaration.2) :
    (env.extend declaration?).Holds Good := by
  cases declaration? with
  | none => exact h
  | some declaration =>
    obtain ⟨hscope, houter⟩ := List.forall_mem_cons.1 h.declared
    have hown : ∀ d ∈ declaration :: env.scope, Good d.2 :=
      List.forall_mem_cons.2 ⟨hd declaration rfl, hscope⟩
    exact ⟨List.forall_mem_cons.2 ⟨hown, houter⟩, h.result⟩

/-- A body keeps the property if the types in front of it have it. -/
theorem inside (h : env.Holds Good) {params : List Param} {result : Ty}
    (hparams : ∀ p ∈ params, Good p.type) (hresult : Good result) :
    (env.inside params result).Holds Good where
  declared := by
    refine List.forall_mem_cons.2 ⟨fun declaration hd => ?_, h.declared⟩
    obtain ⟨p, hp, rfl⟩ := List.mem_map.1 (List.mem_reverse.1 hd)
    exact hparams p hp
  result := by
    rintro _ ⟨⟩
    exact hresult

end Env.Holds

/-! ## The sites in a tree -/

mutual

/-- The checked sites in an expression, itself included. -/
def Expr.sites (env : Env) : Expr → List Site
  | .cond condition => ⟨env, .expr (.cond condition)⟩ :: condition.sites env
  | .add sum => ⟨env, .expr (.add sum)⟩ :: sum.sites env
  | .array entries => ⟨env, .expr (.array entries)⟩ :: Exprs.sites env entries
  | .closure params result body =>
    ⟨env, .expr (.closure params result body)⟩ ::
      (Params.sites env params ++ Stmts.sites (env.inside params result) body)

/-- The checked sites in several expressions. -/
def Exprs.sites (env : Env) : List Expr → List Site
  | [] => []
  | e :: es => e.sites env ++ Exprs.sites env es

/-- The checked sites in parameters of a closure: those in their defaults. -/
def Params.sites (env : Env) : List Param → List Site
  | [] => []
  | ⟨_, _, default?⟩ :: params => Default.sites env default? ++ Params.sites env params

def Default.sites (env : Env) : Option Expr → List Site
  | none => []
  | some value => value.sites env

/-- The checked sites in a condition, itself included. -/
def Condition.sites (env : Env) : Condition → List Site
  | .single left relop right =>
    ⟨env, .condition (.single left relop right)⟩ :: (left.sites env ++ right.sites env)
  | .chain left relop right boolop next =>
    ⟨env, .condition (.chain left relop right boolop next)⟩ ::
      (left.sites env ++ (right.sites env ++ next.sites env))

/-- The checked sites in a sum, itself included. -/
def AddExpr.sites (env : Env) : AddExpr → List Site
  | .single term => ⟨env, .sum (.single term)⟩ :: term.sites env
  | .chain term addop next =>
    ⟨env, .sum (.chain term addop next)⟩ :: (term.sites env ++ next.sites env)

/-- The checked sites in a term, itself included. -/
def Term.sites (env : Env) : Term → List Site
  | .single factor => ⟨env, .term (.single factor)⟩ :: factor.sites env
  | .chain factor mulop next =>
    ⟨env, .term (.chain factor mulop next)⟩ :: (factor.sites env ++ next.sites env)

/-- The checked sites in a factor, itself included. Indices are none. -/
def Factor.sites (env : Env) : Factor → List Site
  | .var name indices => [⟨env, .factor (.var name indices)⟩]
  | .call callee args => ⟨env, .factor (.call callee args)⟩ :: Args.sites env args
  | .int value => [⟨env, .factor (.int value)⟩]
  | .float value => [⟨env, .factor (.float value)⟩]
  | .paren inner => ⟨env, .factor (.paren inner)⟩ :: inner.sites env

/-- The checked sites in arguments: those in their values. -/
def Args.sites (env : Env) : List Arg → List Site
  | [] => []
  | ⟨_, value⟩ :: args => value.sites env ++ Args.sites env args

/-- The checked sites in a statement, itself included. Of a declared function they are those in
its body. -/
def Stmt.sites (env : Env) : Stmt → List Site
  | .ifThen condition body =>
    ⟨env, .stmt (.ifThen condition body)⟩ ::
      (condition.sites env ++ Stmts.sites env.block body)
  | .ifElse condition body otherwise =>
    ⟨env, .stmt (.ifElse condition body otherwise)⟩ ::
      (condition.sites env ++
        (Stmts.sites env.block body ++ Stmts.sites env.block otherwise))
  | .loop condition body =>
    ⟨env, .stmt (.loop condition body)⟩ ::
      (condition.sites env ++ Stmts.sites env.block body)
  | .assign name value => ⟨env, .stmt (.assign name value)⟩ :: value.sites env
  | .ret value => ⟨env, .stmt (.ret value)⟩ :: value.sites env
  | .letVar name type value => ⟨env, .stmt (.letVar name type value)⟩ :: value.sites env
  | .letFun name params result body =>
    ⟨env, .stmt (.letFun name params result body)⟩ ::
      Stmts.sites (env.inside params result) body
  | .call callee args => ⟨env, .stmt (.call callee args)⟩ :: Args.sites env args

/-- The checked sites in statements, each behind what those in front of it declare. -/
def Stmts.sites (env : Env) : List Stmt → List Site
  | [] => []
  | s :: rest => s.sites env ++ Stmts.sites (env.extend s.declaration?) rest

end

/-- The checked sites in a program. -/
def Program.sites (program : Program) : List Site :=
  Stmts.sites .initial program.body

/-! ## Acceptance of the parts -/

/-- No site of a list has a fault. -/
def AllAccepted (sites : List Site) : Prop := ∀ p ∈ sites, p.Accepted

/-- Where there is no site, there is no fault. -/
theorem allAccepted_nil : AllAccepted [] :=
  fun _ h => nomatch h

/-- A site may be added that has no fault. -/
theorem AllAccepted.cons {p : Site} {sites : List Site} (hp : p.Accepted)
    (h : AllAccepted sites) : AllAccepted (p :: sites) :=
  List.forall_mem_cons.2 ⟨hp, h⟩

/-- Sites of two parts are accepted if those of each are. -/
theorem AllAccepted.append {ps qs : List Site} (hp : AllAccepted ps) (hq : AllAccepted qs) :
    AllAccepted (ps ++ qs) :=
  List.forall_mem_append.2 ⟨hp, hq⟩

mutual

/-- An expression that has a type has sites that are all accepted. The rule for a tree succeeds only
if those for its parts do, in the surroundings that their sites name. -/
theorem Expr.sites_accepted : ∀ {e : Expr} {env : Env} {type : Ty},
    e.typeIn env = .ok type → AllAccepted (e.sites env)
  | .cond condition, env, type, h => by
    rw [Expr.sites]
    refine .cons ⟨type, h⟩ ?_
    rw [Expr.typeIn] at h
    exact Condition.sites_accepted h
  | .add sum, env, type, h => by
    rw [Expr.sites]
    refine .cons ⟨type, h⟩ ?_
    rw [Expr.typeIn] at h
    exact AddExpr.sites_accepted h
  | .array entries, env, type, h => by
    rw [Expr.sites]
    refine .cons ⟨type, h⟩ ?_
    rw [Expr.typeIn] at h
    obtain ⟨types, htypes, -⟩ := exists_ok_of_bind h
    exact Exprs.sites_accepted htypes
  | .closure params result body, env, type, h => by
    rw [Expr.sites]
    refine .cons ⟨type, h⟩ ?_
    rw [Expr.typeIn] at h
    obtain ⟨_, hparams, h⟩ := exists_ok_of_bind h
    obtain ⟨inner, hinner, h⟩ := exists_ok_of_bind h
    obtain ⟨_, hbody, -⟩ := exists_ok_of_bind h
    rw [← Env.body_eq_ok hinner]
    exact (Params.sites_accepted hparams).append (Stmts.sites_accepted hbody)

theorem Exprs.sites_accepted : ∀ {es : List Expr} {env : Env} {types : List Ty},
    Exprs.typesIn env es = .ok types → AllAccepted (Exprs.sites env es)
  | [], env, types, h => by
    rw [Exprs.sites]
    exact allAccepted_nil
  | e :: es, env, types, h => by
    rw [Exprs.sites]
    rw [Exprs.typesIn] at h
    obtain ⟨type, he, h⟩ := exists_ok_of_bind h
    obtain ⟨types, hes, -⟩ := exists_ok_of_bind h
    exact (Expr.sites_accepted he).append (Exprs.sites_accepted hes)

/-- Parameters that are accepted have accepted defaults. -/
theorem Params.sites_accepted : ∀ {params : List Param} {env : Env} {seen : List String},
    Params.checkIn env seen params = .ok () → AllAccepted (Params.sites env params)
  | [], env, seen, h => by
    rw [Params.sites]
    exact allAccepted_nil
  | ⟨name, type, default?⟩ :: params, env, seen, h => by
    rw [Params.sites]
    rw [Params.checkIn] at h
    obtain ⟨-, -, h⟩ := exists_ok_of_bind h
    obtain ⟨_, hdefault, h⟩ := exists_ok_of_bind h
    exact (Default.sites_accepted hdefault).append (Params.sites_accepted h)

theorem Default.sites_accepted : ∀ {default? : Option Expr} {env : Env} {type : Ty},
    Default.checkIn env type default? = .ok () → AllAccepted (Default.sites env default?)
  | none, env, type, h => by
    rw [Default.sites]
    exact allAccepted_nil
  | some value, env, type, h => by
    rw [Default.sites]
    rw [Default.checkIn] at h
    obtain ⟨received, hvalue, -⟩ := exists_ok_of_bind h
    exact Expr.sites_accepted hvalue

theorem Condition.sites_accepted : ∀ {condition : Condition} {env : Env} {type : Ty},
    condition.typeIn env = .ok type → AllAccepted (condition.sites env)
  | .single left relop right, env, type, h => by
    rw [Condition.sites]
    refine .cons ⟨type, h⟩ ?_
    rw [Condition.typeIn] at h
    obtain ⟨leftType, hleft, h⟩ := exists_ok_of_bind h
    obtain ⟨rightType, hright, -⟩ := exists_ok_of_bind h
    exact (AddExpr.sites_accepted hleft).append (AddExpr.sites_accepted hright)
  | .chain left relop right boolop next, env, type, h => by
    rw [Condition.sites]
    refine .cons ⟨type, h⟩ ?_
    rw [Condition.typeIn] at h
    obtain ⟨leftType, hleft, h⟩ := exists_ok_of_bind h
    obtain ⟨rightType, hright, h⟩ := exists_ok_of_bind h
    obtain ⟨-, -, hnext⟩ := exists_ok_of_bind h
    exact (AddExpr.sites_accepted hleft).append
      ((AddExpr.sites_accepted hright).append (Condition.sites_accepted hnext))

theorem AddExpr.sites_accepted : ∀ {sum : AddExpr} {env : Env} {type : Ty},
    sum.typeIn env = .ok type → AllAccepted (sum.sites env)
  | .single term, env, type, h => by
    rw [AddExpr.sites]
    refine .cons ⟨type, h⟩ ?_
    rw [AddExpr.typeIn] at h
    exact Term.sites_accepted h
  | .chain term addop next, env, type, h => by
    rw [AddExpr.sites]
    refine .cons ⟨type, h⟩ ?_
    rw [AddExpr.typeIn] at h
    obtain ⟨head, hterm, h⟩ := exists_ok_of_bind h
    obtain ⟨tail, hnext, -⟩ := exists_ok_of_bind h
    exact (Term.sites_accepted hterm).append (AddExpr.sites_accepted hnext)

theorem Term.sites_accepted : ∀ {term : Term} {env : Env} {type : Ty},
    term.typeIn env = .ok type → AllAccepted (term.sites env)
  | .single factor, env, type, h => by
    rw [Term.sites]
    refine .cons ⟨type, h⟩ ?_
    rw [Term.typeIn] at h
    exact Factor.sites_accepted h
  | .chain factor mulop next, env, type, h => by
    rw [Term.sites]
    refine .cons ⟨type, h⟩ ?_
    rw [Term.typeIn] at h
    obtain ⟨head, hfactor, h⟩ := exists_ok_of_bind h
    obtain ⟨tail, hnext, -⟩ := exists_ok_of_bind h
    exact (Factor.sites_accepted hfactor).append (Term.sites_accepted hnext)

/-- A factor that has a type has accepted arguments or an accepted inner expression. -/
theorem Factor.sites_accepted : ∀ {factor : Factor} {env : Env} {type : Ty},
    factor.typeIn env = .ok type → AllAccepted (factor.sites env)
  | .var name indices, env, type, h => by
    rw [Factor.sites]
    exact .cons ⟨type, h⟩ allAccepted_nil
  | .call callee args, env, type, h => by
    rw [Factor.sites]
    refine .cons ⟨type, h⟩ ?_
    rw [Factor.typeIn] at h
    obtain ⟨declared, -, h⟩ := exists_ok_of_bind h
    obtain ⟨⟨params, result⟩, -, h⟩ := exists_ok_of_bind h
    obtain ⟨_, hargs, -⟩ := exists_ok_of_bind h
    exact Args.sites_accepted hargs
  | .int value, env, type, h => by
    rw [Factor.sites]
    exact .cons ⟨type, h⟩ allAccepted_nil
  | .float value, env, type, h => by
    rw [Factor.sites]
    exact .cons ⟨type, h⟩ allAccepted_nil
  | .paren inner, env, type, h => by
    rw [Factor.sites]
    refine .cons ⟨type, h⟩ ?_
    rw [Factor.typeIn] at h
    exact Expr.sites_accepted h

theorem Args.sites_accepted : ∀ {args : List Arg} {env : Env} {params : List Param},
    Args.checkIn env params args = .ok () → AllAccepted (Args.sites env args)
  | [], env, params, h => by
    rw [Args.sites]
    exact allAccepted_nil
  | ⟨name, value⟩ :: args, env, params, h => by
    rw [Args.sites]
    rw [Args.checkIn] at h
    obtain ⟨received, hvalue, h⟩ := exists_ok_of_bind h
    obtain ⟨-, -, h⟩ := exists_ok_of_bind h
    exact (Expr.sites_accepted hvalue).append (Args.sites_accepted h)

/-- A statement that is accepted has sites that are all accepted, in its bodies as well. -/
theorem Stmt.sites_accepted : ∀ {s : Stmt} {env : Env},
    s.checkIn env = .ok () → AllAccepted (s.sites env)
  | .ifThen condition body, env, h => by
    rw [Stmt.sites]
    refine .cons h ?_
    rw [Stmt.checkIn] at h
    obtain ⟨type, hcondition, hbody⟩ := exists_ok_of_bind h
    exact (Condition.sites_accepted hcondition).append (Stmts.sites_accepted hbody)
  | .ifElse condition body otherwise, env, h => by
    rw [Stmt.sites]
    refine .cons h ?_
    rw [Stmt.checkIn] at h
    obtain ⟨type, hcondition, h⟩ := exists_ok_of_bind h
    obtain ⟨_, hbody, hotherwise⟩ := exists_ok_of_bind h
    exact (Condition.sites_accepted hcondition).append
      ((Stmts.sites_accepted hbody).append (Stmts.sites_accepted hotherwise))
  | .loop condition body, env, h => by
    rw [Stmt.sites]
    refine .cons h ?_
    rw [Stmt.checkIn] at h
    obtain ⟨type, hcondition, hbody⟩ := exists_ok_of_bind h
    exact (Condition.sites_accepted hcondition).append (Stmts.sites_accepted hbody)
  | .assign name value, env, h => by
    rw [Stmt.sites]
    refine .cons h ?_
    rw [Stmt.checkIn] at h
    obtain ⟨expected, -, h⟩ := exists_ok_of_bind h
    obtain ⟨received, hvalue, -⟩ := exists_ok_of_bind h
    exact Expr.sites_accepted hvalue
  | .ret value, env, h => by
    rw [Stmt.sites]
    refine .cons h ?_
    rw [Stmt.checkIn] at h
    obtain ⟨expected, -, h⟩ := exists_ok_of_bind h
    obtain ⟨received, hvalue, -⟩ := exists_ok_of_bind h
    exact Expr.sites_accepted hvalue
  | .letVar name type value, env, h => by
    rw [Stmt.sites]
    refine .cons h ?_
    rw [Stmt.checkIn] at h
    obtain ⟨received, hvalue, -⟩ := exists_ok_of_bind h
    exact Expr.sites_accepted hvalue
  | .letFun name params result body, env, h => by
    rw [Stmt.sites]
    refine .cons h ?_
    rw [Stmt.checkIn] at h
    obtain ⟨inner, hinner, h⟩ := exists_ok_of_bind h
    obtain ⟨_, hbody, -⟩ := exists_ok_of_bind h
    rw [← Env.body_eq_ok hinner]
    exact Stmts.sites_accepted hbody
  | .call callee args, env, h => by
    rw [Stmt.sites]
    refine .cons h ?_
    rw [Stmt.checkIn] at h
    obtain ⟨declared, -, h⟩ := exists_ok_of_bind h
    obtain ⟨⟨params, result⟩, -, hargs⟩ := exists_ok_of_bind h
    exact Args.sites_accepted hargs

/-- Statements that are accepted have sites that are all accepted. -/
theorem Stmts.sites_accepted : ∀ {body : List Stmt} {env : Env},
    Stmts.checkIn env body = .ok () → AllAccepted (Stmts.sites env body)
  | [], env, h => by
    rw [Stmts.sites]
    exact allAccepted_nil
  | s :: rest, env, h => by
    rw [Stmts.sites]
    rw [Stmts.checkIn] at h
    obtain ⟨_, hs, hrest⟩ := exists_ok_of_bind h
    exact (Stmt.sites_accepted hs).append (Stmts.sites_accepted hrest)

end

/-- In an accepted program every checked site is accepted. -/
theorem Program.sites_accepted {program : Program} {c : Context} (h : program.check = .ok c) :
    AllAccepted program.sites := by
  rw [program.check_eq] at h
  cases hrule : program.checkLexically with
  | ok _ => exact Stmts.sites_accepted hrule
  | error fault =>
    rw [hrule] at h
    cases h

end FrontEnd
