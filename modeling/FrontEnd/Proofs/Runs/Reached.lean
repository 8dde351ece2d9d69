import FrontEnd.Proofs.Runs.Rules
import FrontEnd.Proofs.Scoping.Sites

/-!
# A run comes to every checked site

The checked sites of a program are read off its tree, and its points off the run of its check. Both
are accounts of one thing. In a program without a fault the run comes to each site, in a context
whose surroundings are those of the site, and goes through the part that stands there.

- `Part.points`: the contexts to which the check of a part comes.
- `Script.Visits`: what it is for a script to come to several sites.
- `Visits.bind`, `Visits.inBlock`, `Visits.inBody`: a script comes to what its parts come to, also
  if it opens a block or a body for them.
- `Expr.script_visits`, `Stmt.script_visits`: the script of a tree comes to the sites in the tree.
- `Program.sites_reached`: so the points of a program are in particular those of its checked sites.
-/

namespace FrontEnd

open Script

/-- The contexts to which the check of a part comes. -/
def Part.points : Part → Context → List Context
  | .expr e => e.script.points
  | .condition a => a.script.points
  | .sum a => a.script.points
  | .term t => t.script.points
  | .factor f => f.script.points
  | .stmt s => s.script.points

/-- The check of a part comes to where it starts. -/
theorem Part.start_mem_points (part : Part) (c : Context) : c ∈ part.points c := by
  cases part <;> exact Script.start_mem_points _ c

/-! ## What a script visits -/

namespace Script

variable {α β : Type}

/-- From `c`, the script comes to each of the sites in the surroundings of the site, and goes
through the part of the program there. -/
def Visits (m : Script α) (c : Context) (sites : List Site) : Prop :=
  ∀ site ∈ sites, ∃ d, d.env = site.env ∧ site.part.points d ⊆ m.points c

/-- A script that does what a rule says comes to the end that the rule allows. -/
theorem run_of_agrees {a : α} {m : Script α} {check : Check α} {c stop : Context}
    {r : Except Fault α} (hm : m.run = check) (h : check.Agrees c r stop) (hr : r = .ok a) :
    m.run c = .ok a stop := by
  subst hr
  rw [hm]
  exact h

namespace Visits

variable {m : Script α} {f : α → Script β} {c : Context} {sites : List Site}

theorem nil : m.Visits c [] :=
  fun _ h => nomatch h

/-- A script that goes through a part at once comes to the site of the part. -/
theorem cons {part : Part} (hpart : part.points c ⊆ m.points c) (h : m.Visits c sites) :
    m.Visits c (⟨c.env, part⟩ :: sites) :=
  List.forall_mem_cons.2 ⟨⟨c, rfl, hpart⟩, h⟩

/-- What the first part of a script visits is visited. -/
theorem left (h : m.Visits c sites) : (m >>= f).Visits c sites := by
  intro site hsite
  obtain ⟨d, hd, hpoints⟩ := h site hsite
  exact ⟨d, hd, List.Subset.trans hpoints (points_subset_bind m f c)⟩

/-- What the second part visits is visited, if the first ends where the second starts. -/
theorem right {a : α} {stop : Context} (hrun : m.run c = .ok a stop)
    (h : (f a).Visits stop sites) : (m >>= f).Visits c sites := by
  intro site hsite
  obtain ⟨d, hd, hpoints⟩ := h site hsite
  exact ⟨d, hd, List.Subset.trans hpoints (points_subset_bind_of_run hrun)⟩

/-- One script and then another come to the sites of both, if the first ends without a fault. -/
theorem bind {a : α} {stop : Context} {others : List Site} (h : m.Visits c sites)
    (hrun : m.run c = .ok a stop) (hf : (f a).Visits stop others) :
    (m >>= f).Visits c (sites ++ others) :=
  List.forall_mem_append.2 ⟨h.left, hf.right hrun⟩

variable {body : Script Unit}

/-- In a block, a script comes to what it comes to from where the block opens. -/
theorem inBlock (h : body.Visits c.block sites) : (inBlock body).Visits c sites :=
  have hopen : openScope.run c = .ok () c.block := by rw [run_openScope]; rfl
  .right hopen (.left h)

/-- In a body, a script comes to what it comes to from where the parameters are declared. -/
theorem inBody {params : List Param} {result : Ty} {inner : Env}
    (hinner : c.env.body params result = .ok inner)
    (h : ∀ scope, (c.body scope result).env = inner → body.Visits (c.body scope result) sites) :
    (inBody params result body).Visits c sites := by
  rw [Env.body, Scope.ofList_eq] at hinner
  obtain ⟨scope, hscope, hinner⟩ := exists_ok_of_bind hinner
  cases hinner
  -- The three steps by which a body is entered, in the order of the script.
  let entered : Context := { c with results := result :: c.results }
  have henter : (enterBody result).run c = .ok () entered := by rw [run_enterBody]; rfl
  have hopen : openScope.run entered = .ok () entered.block := by rw [run_openScope]; rfl
  have hparams : (declareParams params).run entered.block = .ok () (c.body scope result) := by
    have hrun := Check.declareParams_run params entered.block
    have hdeclared : entered.block.scope.declareAll (params.map Param.declaration) = .ok scope :=
      hscope
    rw [hdeclared] at hrun
    rw [run_declareParams]
    exact hrun
  exact .right henter (.right hopen (.right hparams (.left (h scope rfl))))

end Visits

end Script

/-! ## Scripts of trees

An induction over the trees, in which each part runs without a fault because its rule has none. So
the script goes on to the parts behind it, from a context in which their rules have none either. -/

section Runs

variable {c : Context}

/-- An expression with a type runs to its end and leaves the context as it was. -/
theorem Expr.run_of_typeIn {e : Expr} {t : Ty} (h : e.typeIn c.env = .ok t) :
    e.script.run c = .ok t c :=
  run_of_agrees e.run_script (e.check_keeps c) h

/-- A sum with a type does so as well. -/
theorem AddExpr.run_of_typeIn {sum : AddExpr} {t : Ty} (h : sum.typeIn c.env = .ok t) :
    sum.script.run c = .ok t c :=
  run_of_agrees sum.run_script (sum.check_keeps c) h

/-- A condition with a type does so as well. -/
theorem Condition.run_of_typeIn {condition : Condition} {t : Ty}
    (h : condition.typeIn c.env = .ok t) : condition.script.run c = .ok t c :=
  run_of_agrees condition.run_script (condition.check_keeps c) h

/-- A term with a type does so as well. -/
theorem Term.run_of_typeIn {term : Term} {t : Ty} (h : term.typeIn c.env = .ok t) :
    term.script.run c = .ok t c :=
  run_of_agrees term.run_script (term.check_keeps c) h

/-- A factor with a type does so as well. -/
theorem Factor.run_of_typeIn {factor : Factor} {t : Ty} (h : factor.typeIn c.env = .ok t) :
    factor.script.run c = .ok t c :=
  run_of_agrees factor.run_script (factor.check_keeps c) h

/-- A block of accepted statements runs to its end and leaves nothing behind. -/
theorem Stmts.run_inBlock_of_checkIn {body : List Stmt}
    (h : Stmts.checkIn c.env.block body = .ok ()) :
    (inBlock (Stmts.script body)).run c = .ok () c := by
  refine run_of_agrees (run_inBlock _) ?_ h
  rw [Stmts.run_script]
  exact Check.inBlock_keeps (Stmts.check_agrees body c.block)

/-- A rule that succeeds is passed. -/
theorem run_judge_of_ok {α : Type} {r : Except Fault α} {a : α} (h : r = .ok a) :
    (judge r).run c = .ok a c :=
  run_of_agrees (run_judge r) Check.judge_keeps h

/-- A name in scope is found. -/
theorem run_lookup_of_ok {name : String} {t : Ty} (h : c.env.lookup name = .ok t) :
    (lookup name).run c = .ok t c :=
  run_of_agrees (run_lookup name) (Check.lookup_keeps name) h

end Runs

mutual

/-- The script of an expression that has a type comes to all sites in it. -/
theorem Expr.script_visits : ∀ {e : Expr} {c : Context} {t : Ty},
    e.typeIn c.env = .ok t → e.script.Visits c (e.sites c.env)
  | .cond condition, c, t, h => by
    rw [Expr.sites]
    refine .cons (List.Subset.refl _) ?_
    rw [Expr.typeIn] at h
    rw [Expr.script]
    exact Condition.script_visits h
  | .add sum, c, t, h => by
    rw [Expr.sites]
    refine .cons (List.Subset.refl _) ?_
    rw [Expr.typeIn] at h
    rw [Expr.script]
    exact AddExpr.script_visits h
  | .array entries, c, t, h => by
    rw [Expr.sites]
    refine .cons (List.Subset.refl _) ?_
    rw [Expr.typeIn] at h
    rw [Expr.script]
    obtain ⟨types, htypes, -⟩ := exists_ok_of_bind h
    exact .left (Exprs.script_visits htypes)
  | .closure params result body, c, t, h => by
    rw [Expr.sites]
    refine .cons (List.Subset.refl _) ?_
    rw [Expr.typeIn] at h
    rw [Expr.script]
    obtain ⟨_, hparams, h⟩ := exists_ok_of_bind h
    obtain ⟨inner, hinner, h⟩ := exists_ok_of_bind h
    obtain ⟨_, hbody, -⟩ := exists_ok_of_bind h
    have hrun : (Params.script [] params).run c = .ok () c :=
      run_of_agrees (Params.run_script [] params) (Params.check_keeps [] params c) hparams
    refine (Params.script_visits hparams).bind hrun (.left (.inBody hinner ?_))
    rintro scope rfl
    rw [← Env.body_eq_ok hinner]
    exact Stmts.script_visits hbody

theorem Exprs.script_visits : ∀ {es : List Expr} {c : Context} {types : List Ty},
    Exprs.typesIn c.env es = .ok types → (Exprs.script es).Visits c (Exprs.sites c.env es)
  | [], c, types, h => by
    rw [Exprs.sites]
    exact .nil
  | e :: es, c, types, h => by
    rw [Exprs.sites, Exprs.script]
    rw [Exprs.typesIn] at h
    obtain ⟨type, he, h⟩ := exists_ok_of_bind h
    obtain ⟨types, hes, -⟩ := exists_ok_of_bind h
    exact (Expr.script_visits he).bind (Expr.run_of_typeIn he) (.left (Exprs.script_visits hes))

/-- The script of accepted parameters comes to the sites in their defaults. -/
theorem Params.script_visits : ∀ {params : List Param} {c : Context} {seen : List String},
    Params.checkIn c.env seen params = .ok () →
      (Params.script seen params).Visits c (Params.sites c.env params)
  | [], c, seen, h => by
    rw [Params.sites]
    exact .nil
  | ⟨name, type, default?⟩ :: params, c, seen, h => by
    rw [Params.sites, Params.script]
    rw [Params.checkIn] at h
    obtain ⟨_, hname, h⟩ := exists_ok_of_bind h
    obtain ⟨_, hdefault, h⟩ := exists_ok_of_bind h
    have hrun : (Default.script type default?).run c = .ok () c :=
      run_of_agrees (Default.run_script type default?) (Default.check_keeps type default? c)
        hdefault
    refine .right (run_judge_of_ok hname) ?_
    exact (Default.script_visits hdefault).bind hrun (Params.script_visits h)

theorem Default.script_visits : ∀ {default? : Option Expr} {c : Context} {type : Ty},
    Default.checkIn c.env type default? = .ok () →
      (Default.script type default?).Visits c (Default.sites c.env default?)
  | none, c, type, h => by
    rw [Default.sites]
    exact .nil
  | some value, c, type, h => by
    rw [Default.sites, Default.script]
    rw [Default.checkIn] at h
    obtain ⟨received, hvalue, -⟩ := exists_ok_of_bind h
    exact .left (Expr.script_visits hvalue)

/-- The script of a condition comes to both sides of every comparison. -/
theorem Condition.script_visits : ∀ {condition : Condition} {c : Context} {t : Ty},
    condition.typeIn c.env = .ok t → condition.script.Visits c (condition.sites c.env)
  | .single left relop right, c, t, h => by
    rw [Condition.sites]
    refine .cons (List.Subset.refl _) ?_
    rw [Condition.typeIn] at h
    rw [Condition.script]
    obtain ⟨leftType, hleft, h⟩ := exists_ok_of_bind h
    obtain ⟨rightType, hright, -⟩ := exists_ok_of_bind h
    exact (AddExpr.script_visits hleft).bind (AddExpr.run_of_typeIn hleft)
      (.left (AddExpr.script_visits hright))
  | .chain left relop right boolop next, c, t, h => by
    rw [Condition.sites]
    refine .cons (List.Subset.refl _) ?_
    rw [Condition.typeIn] at h
    rw [Condition.script]
    obtain ⟨leftType, hleft, h⟩ := exists_ok_of_bind h
    obtain ⟨rightType, hright, h⟩ := exists_ok_of_bind h
    obtain ⟨_, hcomparable, hnext⟩ := exists_ok_of_bind h
    refine (AddExpr.script_visits hleft).bind (AddExpr.run_of_typeIn hleft) ?_
    refine (AddExpr.script_visits hright).bind (AddExpr.run_of_typeIn hright) ?_
    exact .right (run_judge_of_ok hcomparable) (Condition.script_visits hnext)

theorem AddExpr.script_visits : ∀ {sum : AddExpr} {c : Context} {t : Ty},
    sum.typeIn c.env = .ok t → sum.script.Visits c (sum.sites c.env)
  | .single term, c, t, h => by
    rw [AddExpr.sites]
    refine .cons (List.Subset.refl _) ?_
    rw [AddExpr.typeIn] at h
    rw [AddExpr.script]
    exact Term.script_visits h
  | .chain term addop next, c, t, h => by
    rw [AddExpr.sites]
    refine .cons (List.Subset.refl _) ?_
    rw [AddExpr.typeIn] at h
    rw [AddExpr.script]
    obtain ⟨head, hterm, h⟩ := exists_ok_of_bind h
    obtain ⟨tail, hnext, -⟩ := exists_ok_of_bind h
    exact (Term.script_visits hterm).bind (Term.run_of_typeIn hterm)
      (.left (AddExpr.script_visits hnext))

theorem Term.script_visits : ∀ {term : Term} {c : Context} {t : Ty},
    term.typeIn c.env = .ok t → term.script.Visits c (term.sites c.env)
  | .single factor, c, t, h => by
    rw [Term.sites]
    refine .cons (List.Subset.refl _) ?_
    rw [Term.typeIn] at h
    rw [Term.script]
    exact Factor.script_visits h
  | .chain factor mulop next, c, t, h => by
    rw [Term.sites]
    refine .cons (List.Subset.refl _) ?_
    rw [Term.typeIn] at h
    rw [Term.script]
    obtain ⟨head, hfactor, h⟩ := exists_ok_of_bind h
    obtain ⟨tail, hnext, -⟩ := exists_ok_of_bind h
    exact (Factor.script_visits hfactor).bind (Factor.run_of_typeIn hfactor)
      (.left (Term.script_visits hnext))

/-- The script of a factor comes to its arguments or its inner expression. -/
theorem Factor.script_visits : ∀ {factor : Factor} {c : Context} {t : Ty},
    factor.typeIn c.env = .ok t → factor.script.Visits c (factor.sites c.env)
  | .var name indices, c, t, h => by
    rw [Factor.sites]
    exact .cons (List.Subset.refl _) .nil
  | .call callee args, c, t, h => by
    rw [Factor.sites]
    refine .cons (List.Subset.refl _) ?_
    rw [Factor.typeIn] at h
    rw [Factor.script]
    obtain ⟨declared, hcallee, h⟩ := exists_ok_of_bind h
    obtain ⟨⟨params, result⟩, hsignature, h⟩ := exists_ok_of_bind h
    obtain ⟨_, hargs, -⟩ := exists_ok_of_bind h
    refine .right (run_lookup_of_ok hcallee) (.right (run_judge_of_ok hsignature) ?_)
    exact .left (Args.script_visits hargs)
  | .int value, c, t, h => by
    rw [Factor.sites]
    exact .cons (List.Subset.refl _) .nil
  | .float value, c, t, h => by
    rw [Factor.sites]
    exact .cons (List.Subset.refl _) .nil
  | .paren inner, c, t, h => by
    rw [Factor.sites]
    refine .cons (List.Subset.refl _) ?_
    rw [Factor.typeIn] at h
    rw [Factor.script]
    exact Expr.script_visits h

/-- The script of arguments comes to all their values. -/
theorem Args.script_visits : ∀ {args : List Arg} {c : Context} {params : List Param},
    Args.checkIn c.env params args = .ok () →
      (Args.script params args).Visits c (Args.sites c.env args)
  | [], c, params, h => by
    rw [Args.sites]
    exact .nil
  | ⟨name, value⟩ :: args, c, params, h => by
    rw [Args.sites, Args.script]
    rw [Args.checkIn] at h
    obtain ⟨received, hvalue, h⟩ := exists_ok_of_bind h
    obtain ⟨_, hargument, h⟩ := exists_ok_of_bind h
    refine (Expr.script_visits hvalue).bind (Expr.run_of_typeIn hvalue) ?_
    exact .right (run_judge_of_ok hargument) (Args.script_visits h)

/-- The script of an accepted statement comes to all sites in it, in its blocks and bodies as
well. -/
theorem Stmt.script_visits : ∀ {s : Stmt} {c : Context},
    s.checkIn c.env = .ok () → s.script.Visits c (s.sites c.env)
  | .ifThen condition body, c, h => by
    rw [Stmt.sites]
    refine .cons (List.Subset.refl _) ?_
    rw [Stmt.checkIn] at h
    rw [Stmt.script]
    obtain ⟨t, hcondition, hbody⟩ := exists_ok_of_bind h
    have hblock : (Stmts.script body).Visits c.block (Stmts.sites c.env.block body) :=
      Stmts.script_visits hbody
    exact (Condition.script_visits hcondition).bind (Condition.run_of_typeIn hcondition)
      (.inBlock hblock)
  | .ifElse condition body otherwise, c, h => by
    rw [Stmt.sites]
    refine .cons (List.Subset.refl _) ?_
    rw [Stmt.checkIn] at h
    rw [Stmt.script]
    obtain ⟨t, hcondition, h⟩ := exists_ok_of_bind h
    obtain ⟨_, hbody, hotherwise⟩ := exists_ok_of_bind h
    have hblock : (Stmts.script body).Visits c.block (Stmts.sites c.env.block body) :=
      Stmts.script_visits hbody
    have hother : (Stmts.script otherwise).Visits c.block (Stmts.sites c.env.block otherwise) :=
      Stmts.script_visits hotherwise
    exact (Condition.script_visits hcondition).bind (Condition.run_of_typeIn hcondition)
      ((Visits.inBlock hblock).bind (Stmts.run_inBlock_of_checkIn hbody) (.inBlock hother))
  | .loop condition body, c, h => by
    rw [Stmt.sites]
    refine .cons (List.Subset.refl _) ?_
    rw [Stmt.checkIn] at h
    rw [Stmt.script]
    obtain ⟨t, hcondition, hbody⟩ := exists_ok_of_bind h
    have hblock : (Stmts.script body).Visits c.block (Stmts.sites c.env.block body) :=
      Stmts.script_visits hbody
    exact (Condition.script_visits hcondition).bind (Condition.run_of_typeIn hcondition)
      (.inBlock hblock)
  | .assign name value, c, h => by
    rw [Stmt.sites]
    refine .cons (List.Subset.refl _) ?_
    rw [Stmt.checkIn] at h
    rw [Stmt.script]
    obtain ⟨expected, hname, h⟩ := exists_ok_of_bind h
    obtain ⟨received, hvalue, -⟩ := exists_ok_of_bind h
    exact .right (run_lookup_of_ok hname) (.left (Expr.script_visits hvalue))
  | .ret value, c, h => by
    rw [Stmt.sites]
    refine .cons (List.Subset.refl _) ?_
    rw [Stmt.checkIn] at h
    rw [Stmt.script]
    obtain ⟨expected, hresult, h⟩ := exists_ok_of_bind h
    obtain ⟨received, hvalue, -⟩ := exists_ok_of_bind h
    have hrun : resultType.run c = .ok expected c :=
      run_of_agrees run_resultType Check.resultType_keeps hresult
    exact .right hrun (.left (Expr.script_visits hvalue))
  | .letVar name type value, c, h => by
    rw [Stmt.sites]
    refine .cons (List.Subset.refl _) ?_
    rw [Stmt.checkIn] at h
    rw [Stmt.script]
    obtain ⟨received, hvalue, -⟩ := exists_ok_of_bind h
    exact .left (Expr.script_visits hvalue)
  | .letFun name params result body, c, h => by
    rw [Stmt.sites]
    refine .cons (List.Subset.refl _) ?_
    rw [Stmt.checkIn] at h
    rw [Stmt.script]
    obtain ⟨inner, hinner, h⟩ := exists_ok_of_bind h
    obtain ⟨_, hbody, -⟩ := exists_ok_of_bind h
    refine .left (.inBody hinner ?_)
    rintro scope rfl
    rw [← Env.body_eq_ok hinner]
    exact Stmts.script_visits hbody
  | .call callee args, c, h => by
    rw [Stmt.sites]
    refine .cons (List.Subset.refl _) ?_
    rw [Stmt.checkIn] at h
    rw [Stmt.script]
    obtain ⟨declared, hcallee, h⟩ := exists_ok_of_bind h
    obtain ⟨⟨params, result⟩, hsignature, hargs⟩ := exists_ok_of_bind h
    refine .right (run_lookup_of_ok hcallee) (.right (run_judge_of_ok hsignature) ?_)
    exact Args.script_visits hargs

/-- The script of accepted statements comes to all sites in them. -/
theorem Stmts.script_visits : ∀ {body : List Stmt} {c : Context},
    Stmts.checkIn c.env body = .ok () → (Stmts.script body).Visits c (Stmts.sites c.env body)
  | [], c, h => by
    rw [Stmts.sites]
    exact .nil
  | s :: rest, c, h => by
    rw [Stmts.sites, Stmts.script]
    rw [Stmts.checkIn] at h
    obtain ⟨_, hs, hrest⟩ := exists_ok_of_bind h
    have hrun : s.script.run c = .ok () (c.declaring s.declaration?.toList) :=
      run_of_agrees s.run_script (s.check_agrees c) hs
    -- What the statement declares surrounds the rest.
    rw [← c.env_declaring] at hrest ⊢
    exact (Stmt.script_visits hs).bind hrun (Stmts.script_visits hrest)

end

/-- **One account**: the run of an accepted program comes to each of its checked sites, in a context
whose surroundings are those of the site, and from there goes through the part that stands there. -/
theorem Program.sites_reached {program : Program} {c : Context} (h : program.check = .ok c) :
    ∀ site ∈ program.sites, ∃ d ∈ program.points, d.env = site.env ∧
      ∀ p ∈ site.part.points d, p ∈ program.points := by
  intro site hsite
  rw [program.check_eq] at h
  cases hrule : program.checkLexically with
  | ok _ =>
    have hvisits : (Stmts.script program.body).Visits .initial program.sites :=
      Stmts.script_visits hrule
    obtain ⟨d, henv, hpoints⟩ := hvisits site hsite
    exact ⟨d, hpoints (site.part.start_mem_points d), henv, fun p hp => hpoints hp⟩
  | error fault =>
    rw [hrule] at h
    cases h

end FrontEnd
