import FrontEnd.Proofs.Lexing.Conservation
import FrontEnd.Proofs.Parsing.Exactness
import FrontEnd.Proofs.Typing.Brackets

/-!
# Array depths stay in range

The levels of arrays are counted without a limit in sight, but no program comes near one: every
level that a check ever sees was paid for with a bracket of the program.

- `Site.Fits m`: the brackets around a part and those in it are at most `m` together.
- `Program.sites_fit`: each checked site fits the brackets of the program, since what it sees was
  written before it.
- `Context.Within`, `points_within`: no context of a run holds a type with more brackets.
- `depths_bounded`: so no depth exceeds the number of opening brackets in the source.
-/

namespace FrontEnd

/-! ## Sites -/

/-- The row of terminals of a part. -/
def Part.yield : Part → List Terminal
  | .expr e => e.yield
  | .condition c => c.yield
  | .sum a => a.yield
  | .term t => t.yield
  | .factor f => f.yield
  | .stmt s => s.yield

/-- The types around a part have few brackets enough to leave room for those of the part. -/
def Site.Fits (m : Nat) (site : Site) : Prop :=
  ∃ n, site.env.Within n ∧ n + brackets site.part.yield ≤ m

/-- What a name means at a site has no more brackets than its bound. -/
theorem Site.Fits.lookup {m : Nat} {env : Env} {part : Part} {name : String} {t : Ty}
    (h : Site.Fits m ⟨env, part⟩) (ht : env.lookup name = .ok t) : brackets t.yield ≤ m := by
  obtain ⟨n, henv, hpart⟩ := h
  exact Nat.le_trans (Env.Holds.lookup henv ht) (Nat.le_trans (Nat.le_add_right n _) hpart)

/-- All sites of a list fit. -/
def AllFit (m : Nat) (sites : List Site) : Prop := ∀ site ∈ sites, site.Fits m

namespace AllFit

variable {n m : Nat} {sites others : List Site}

/-- No site is beyond any bound. -/
theorem nil : AllFit m [] := List.forall_mem_nil _

/-- A site fits if its surroundings and its part together do. -/
theorem cons {env : Env} {part : Part} (henv : env.Within n)
    (hpart : n + brackets part.yield ≤ m) (h : AllFit m sites) :
    AllFit m (⟨env, part⟩ :: sites) :=
  List.forall_mem_cons.2 ⟨⟨n, henv, hpart⟩, h⟩

/-- Sites of two parts fit if those of each do. -/
theorem append (h : AllFit m sites) (hothers : AllFit m others) : AllFit m (sites ++ others) :=
  List.forall_mem_append.2 ⟨h, hothers⟩

/-- Sites fit a larger bound as well. -/
theorem mono (h : AllFit n sites) (hnm : n ≤ m) : AllFit m sites := by
  intro site hsite
  obtain ⟨k, henv, hpart⟩ := h site hsite
  exact ⟨k, henv, Nat.le_trans hpart hnm⟩

end AllFit

mutual

/-- The sites in an expression fit the brackets around it and its own. Each part brings its brackets
with it, and a closure those of its parameters and result. -/
theorem Expr.sites_fit {n : Nat} {env : Env} : ∀ (e : Expr), env.Within n →
    AllFit (n + brackets e.yield) (e.sites env)
  | .cond condition, henv => by
    rw [Expr.sites]
    refine .cons henv (Nat.le_refl _) ?_
    rw [Expr.yield]
    exact condition.sites_fit henv
  | .add sum, henv => by
    rw [Expr.sites]
    refine .cons henv (Nat.le_refl _) ?_
    rw [Expr.yield]
    exact sum.sites_fit henv
  | .array entries, henv => by
    rw [Expr.sites]
    refine .cons henv (Nat.le_refl _) ((Exprs.sites_fit entries henv).mono ?_)
    simp only [Expr.yield, brackets_append, brackets_cons]
    omega
  | .closure params result body, henv => by
    -- The body sees the types of the head, whose brackets are those of this expression too.
    rw [Expr.sites]
    refine .cons henv (Nat.le_refl _) (.append ((Params.sites_fit params henv).mono ?_)
      ((Stmts.sites_fit body henv.inside).mono ?_))
    all_goals
      simp only [Expr.yield, brackets_append, brackets_cons]
      omega

theorem Exprs.sites_fit {n : Nat} {env : Env} : ∀ (es : List Expr), env.Within n →
    AllFit (n + brackets (Exprs.yield es)) (Exprs.sites env es)
  | [], _ => .nil
  | e :: es, henv => by
    rw [Exprs.sites, Exprs.brackets_cons]
    refine .append ((e.sites_fit henv).mono ?_) ((Exprs.sites_fit es henv).mono ?_)
    all_goals omega

/-- The sites in parameters fit with the brackets of their defaults. -/
theorem Params.sites_fit {n : Nat} {env : Env} : ∀ (params : List Param), env.Within n →
    AllFit (n + brackets (Params.yield params)) (Params.sites env params)
  | [], _ => .nil
  | ⟨name, type, default?⟩ :: params, henv => by
    rw [Params.sites, Params.brackets_cons]
    refine .append ?_ ((Params.sites_fit params henv).mono (by omega))
    cases default? with
    | none => exact .nil
    | some value =>
      refine (value.sites_fit henv).mono ?_
      simp only [Param.yield, brackets_append, brackets_cons]
      omega

/-- The sites in a condition fit with the brackets of both sides. -/
theorem Condition.sites_fit {n : Nat} {env : Env} : ∀ (condition : Condition), env.Within n →
    AllFit (n + brackets condition.yield) (condition.sites env)
  | .single left relop right, henv => by
    rw [Condition.sites]
    refine .cons henv (Nat.le_refl _) (.append ((left.sites_fit henv).mono ?_)
      ((right.sites_fit henv).mono ?_))
    all_goals
      simp only [Condition.yield, brackets_append, brackets_cons]
      omega
  | .chain left relop right boolop next, henv => by
    rw [Condition.sites]
    refine .cons henv (Nat.le_refl _) (.append ((left.sites_fit henv).mono ?_)
      (.append ((right.sites_fit henv).mono ?_) ((next.sites_fit henv).mono ?_)))
    all_goals
      simp only [Condition.yield, brackets_append, brackets_cons]
      omega

theorem AddExpr.sites_fit {n : Nat} {env : Env} : ∀ (sum : AddExpr), env.Within n →
    AllFit (n + brackets sum.yield) (sum.sites env)
  | .single term, henv => by
    rw [AddExpr.sites]
    refine .cons henv (Nat.le_refl _) ?_
    rw [AddExpr.yield]
    exact term.sites_fit henv
  | .chain term addop next, henv => by
    rw [AddExpr.sites]
    refine .cons henv (Nat.le_refl _) (.append ((term.sites_fit henv).mono ?_)
      ((next.sites_fit henv).mono ?_))
    all_goals
      simp only [AddExpr.yield, brackets_append, brackets_cons]
      omega

theorem Term.sites_fit {n : Nat} {env : Env} : ∀ (term : Term), env.Within n →
    AllFit (n + brackets term.yield) (term.sites env)
  | .single factor, henv => by
    rw [Term.sites]
    refine .cons henv (Nat.le_refl _) ?_
    rw [Term.yield]
    exact factor.sites_fit henv
  | .chain factor mulop next, henv => by
    rw [Term.sites]
    refine .cons henv (Nat.le_refl _) (.append ((factor.sites_fit henv).mono ?_)
      ((next.sites_fit henv).mono ?_))
    all_goals
      simp only [Term.yield, brackets_append, brackets_cons]
      omega

theorem Factor.sites_fit {n : Nat} {env : Env} : ∀ (factor : Factor), env.Within n →
    AllFit (n + brackets factor.yield) (factor.sites env)
  -- Indices are not checked, whatever brackets are in them.
  | .var name indices, henv => .cons henv (Nat.le_refl _) .nil
  | .call callee args, henv => by
    rw [Factor.sites]
    refine .cons henv (Nat.le_refl _) ((Args.sites_fit args henv).mono ?_)
    simp only [Factor.yield, brackets_append, brackets_cons]
    omega
  | .int value, henv => .cons henv (Nat.le_refl _) .nil
  | .float value, henv => .cons henv (Nat.le_refl _) .nil
  | .paren inner, henv => by
    rw [Factor.sites]
    refine .cons henv (Nat.le_refl _) ((inner.sites_fit henv).mono ?_)
    simp only [Factor.yield, brackets_append, brackets_cons]
    omega

theorem Args.sites_fit {n : Nat} {env : Env} : ∀ (args : List Arg), env.Within n →
    AllFit (n + brackets (Args.yield args)) (Args.sites env args)
  | [], _ => .nil
  | ⟨name, value⟩ :: args, henv => by
    rw [Args.sites, Args.brackets_cons]
    refine .append ((value.sites_fit henv).mono ?_) ((Args.sites_fit args henv).mono (by omega))
    simp only [Arg.yield, brackets_cons]
    omega

/-- The sites in a statement fit with its brackets. A body in it is surrounded by parameters and a
result that the statement writes. -/
theorem Stmt.sites_fit {n : Nat} {env : Env} : ∀ (s : Stmt), env.Within n →
    AllFit (n + brackets s.yield) (s.sites env)
  | .ifThen condition body, henv => by
    rw [Stmt.sites]
    refine .cons henv (Nat.le_refl _) (.append ((condition.sites_fit henv).mono ?_)
      ((Stmts.sites_fit body henv.block).mono ?_))
    all_goals
      simp only [Stmt.yield, brackets_append, brackets_cons]
      omega
  | .ifElse condition body otherwise, henv => by
    rw [Stmt.sites]
    refine .cons henv (Nat.le_refl _) (.append ((condition.sites_fit henv).mono ?_)
      (.append ((Stmts.sites_fit body henv.block).mono ?_)
        ((Stmts.sites_fit otherwise henv.block).mono ?_)))
    all_goals
      simp only [Stmt.yield, brackets_append, brackets_cons]
      omega
  | .loop condition body, henv => by
    rw [Stmt.sites]
    refine .cons henv (Nat.le_refl _) (.append ((condition.sites_fit henv).mono ?_)
      ((Stmts.sites_fit body henv.block).mono ?_))
    all_goals
      simp only [Stmt.yield, brackets_append, brackets_cons]
      omega
  | .assign name value, henv => by
    rw [Stmt.sites]
    refine .cons henv (Nat.le_refl _) ((value.sites_fit henv).mono ?_)
    simp only [Stmt.yield, brackets_append, brackets_cons]
    omega
  | .ret value, henv => by
    rw [Stmt.sites]
    refine .cons henv (Nat.le_refl _) ((value.sites_fit henv).mono ?_)
    simp only [Stmt.yield, brackets_append, brackets_cons]
    omega
  | .letVar name type value, henv => by
    rw [Stmt.sites]
    refine .cons henv (Nat.le_refl _) ((value.sites_fit henv).mono ?_)
    simp only [Stmt.yield, brackets_append, brackets_cons]
    omega
  | .letFun name params result body, henv => by
    rw [Stmt.sites]
    refine .cons henv (Nat.le_refl _) ((Stmts.sites_fit body henv.inside).mono ?_)
    simp only [Stmt.yield, brackets_append, brackets_cons]
    omega
  | .call callee args, henv => by
    rw [Stmt.sites]
    refine .cons henv (Nat.le_refl _) ((Args.sites_fit args henv).mono ?_)
    simp only [Stmt.yield, brackets_append, brackets_cons]
    omega

/-- What a statement declares costs brackets of its own, which stand before those that see it. -/
theorem Stmts.sites_fit {n : Nat} {env : Env} : ∀ (body : List Stmt), env.Within n →
    AllFit (n + brackets (Stmts.yield body)) (Stmts.sites env body)
  | [], _ => .nil
  | s :: rest, henv => by
    -- So the brackets of the statement move from the part over to its surroundings.
    rw [Stmts.sites, Stmts.yield, brackets_append, ← Nat.add_assoc]
    exact .append ((s.sites_fit henv).mono (Nat.le_add_right _ _))
      (Stmts.sites_fit rest (henv.extend s))

end

/-- Nothing that is in scope from the start has a bracket, so the whole program is there for its
sites. -/
theorem Program.sites_fit (program : Program) :
    AllFit (brackets (Stmts.yield program.body)) program.sites := by
  have hfit := Stmts.sites_fit program.body Env.Within.initial
  rw [Nat.zero_add] at hfit
  exact hfit

/-! ## Answers at sites -/

/-- Whether the check of a part from a context answers a type. A statement answers none. -/
def Part.Answers : Part → Context → Ty → Prop
  | .expr e, start, type => ∃ stop, e.check start = .ok type stop
  | .condition c, start, type => ∃ stop, c.check start = .ok type stop
  | .sum a, start, type => ∃ stop, a.check start = .ok type stop
  | .term t, start, type => ∃ stop, t.check start = .ok type stop
  | .factor f, start, type => ∃ stop, f.check start = .ok type stop
  | .stmt _, _, _ => False

/-- What the check of a part answers at a site that fits has no more brackets than the bound. -/
theorem Site.Fits.answer {m : Nat} {c : Context} {part : Part} {t : Ty}
    (h : Site.Fits m ⟨c.env, part⟩) (ht : part.Answers c t) : brackets t.yield ≤ m := by
  obtain ⟨n, henv, hpart⟩ := h
  refine Nat.le_trans ?_ hpart
  cases part with
  | expr e =>
    obtain ⟨stop, hrun⟩ := ht
    exact Expr.brackets_le henv ((e.check_keeps c).of_ok hrun).2
  | condition condition =>
    obtain ⟨stop, hrun⟩ := ht
    have htype := ((condition.check_keeps c).of_ok hrun).2
    rw [(Condition.typeIn_iff.1 htype).1]
    exact Nat.zero_le _
  | sum sum =>
    obtain ⟨stop, hrun⟩ := ht
    exact AddExpr.brackets_le henv ((sum.check_keeps c).of_ok hrun).2
  | term term =>
    obtain ⟨stop, hrun⟩ := ht
    exact Term.brackets_le henv ((term.check_keeps c).of_ok hrun).2
  | factor factor =>
    obtain ⟨stop, hrun⟩ := ht
    exact Factor.brackets_le henv ((factor.check_keeps c).of_ok hrun).2
  | stmt s => cases ht

/-- The entries of an array leave room for the brackets around them. -/
theorem Site.Fits.entry {m : Nat} {c stop : Context} {entries : List Expr} {e : Expr} {t : Ty}
    (h : Site.Fits m ⟨c.env, .expr (.array entries)⟩) (he : e ∈ entries)
    (hrun : e.check c = .ok t stop) : brackets t.yield + 1 ≤ m := by
  obtain ⟨n, henv, hpart⟩ := h
  have hentry := Expr.brackets_le henv ((e.check_keeps c).of_ok hrun).2
  have hentries := Exprs.brackets_le_of_mem he
  simp [Part.yield, Expr.yield, Terminal.kind] at hpart
  omega

/-! ## Contexts of a run -/

/-- No type that is in scope or that bodies have to return has more than `m` brackets. -/
structure Context.Within (m : Nat) (c : Context) : Prop where
  declared : ∀ scope ∈ c.scopes, ∀ declaration ∈ scope, brackets declaration.2.yield ≤ m
  results : ∀ result ∈ c.results, brackets result.yield ≤ m

namespace Context.Within

variable {m : Nat} {c : Context}

/-- Nothing in the initial context has a bracket. -/
theorem initial : Context.initial.Within m where
  declared := List.forall_mem_singleton.2 fun declaration h =>
    Nat.le_trans (Scope.brackets_builtIns declaration h) (Nat.zero_le m)
  results := List.forall_mem_nil _

/-- What a step stores is written in the row, whose brackets bound it. -/
theorem step {row : List Terminal} (s : Step) (hs : s.WrittenIn row) (c : Context)
    (answer : s.Answer) (stop : Context) (hc : c.Within (brackets row))
    (hrun : s.check c = .ok answer stop) : stop.Within (brackets row) := by
  cases s with
  | lookup name =>
    obtain ⟨rfl, -⟩ := (Check.lookup_keeps name).of_ok hrun
    exact hc
  | resultType =>
    obtain ⟨rfl, -⟩ := Check.resultType_keeps.of_ok hrun
    exact hc
  | declare name type =>
    obtain ⟨rfl, -⟩ := (Check.declare_agrees name type).of_ok hrun
    obtain ⟨hscope, houter⟩ := List.forall_mem_cons.1 hc.declared
    have htype : brackets type.yield ≤ brackets row := hs.brackets_le
    exact ⟨List.forall_mem_cons.2 ⟨List.forall_mem_cons.2 ⟨htype, hscope⟩, houter⟩, hc.results⟩
  | openScope =>
    cases hrun
    exact ⟨List.forall_mem_cons.2 ⟨List.forall_mem_nil _, hc.declared⟩, hc.results⟩
  | closeScope =>
    -- Only what has a scope around it is closed, and the scopes around it are as they were.
    obtain ⟨scope, outer, results⟩ := c
    cases outer with
    | nil => cases hrun
    | cons next rest =>
      cases hrun
      exact ⟨(List.forall_mem_cons.1 hc.declared).2, hc.results⟩
  | enterBody result =>
    cases hrun
    exact ⟨hc.declared, List.forall_mem_cons.2 ⟨hs.brackets_le, hc.results⟩⟩
  | leaveBody =>
    cases hrun
    exact ⟨hc.declared, fun result hmem => hc.results result (List.mem_of_mem_tail hmem)⟩

end Context.Within

/-- The brackets of a program bound those of every type that its check stores. -/
theorem Program.points_within (program : Program) :
    ∀ c ∈ program.points, c.Within (brackets (Stmts.yield program.body)) := by
  have honly := Stmts.script_only program.body (.refl _)
  exact honly.holds_at_points Context.Within.step Context.Within.initial

/-! ## Depths -/

/-- An index takes off a level that is there. -/
theorem Typing.depth_of_indexed {name : String} {declared t : Ty} {indices : Nat}
    (h : indexed name declared indices = .ok t) : t.depth + indices = declared.depth := by
  unfold indexed at h
  split at h
  · next hindices =>
    cases h
    rw [Ty.depth_withDepth]
    exact Nat.sub_add_cancel hindices
  · cases h

/-- **Depths**: whatever the check of a text declares, expects, finds or computes has array depths
up to the number of opening brackets in the text only, and these are no more than its characters.
This goes for the types that are written inside other types too. An array has a level more than its
entries, and this is still within the bound; an index takes off a level that is there. -/
theorem depths_bounded {source file : String} {program : Program}
    (h : parseProgram (tokenize source file) file = .ok program) :
    openBrackets (tokenize source file) ≤ source.length ∧
      (∀ c ∈ program.points,
        (∀ scope ∈ c.scopes, ∀ declaration ∈ scope,
          declaration.2.DepthsWithin (openBrackets (tokenize source file))) ∧
        ∀ result ∈ c.results, result.DepthsWithin (openBrackets (tokenize source file))) ∧
      ∀ site ∈ program.sites, ∀ c : Context, c.env = site.env →
        (∀ t, site.part.Answers c t → t.DepthsWithin (openBrackets (tokenize source file))) ∧
        (∀ entries, site.part = .expr (.array entries) →
          ∀ e ∈ entries, ∀ t stop, e.check c = .ok t stop →
            t.depth + 1 ≤ openBrackets (tokenize source file)) ∧
        ∀ name indices, site.part = .factor (.var name indices) →
          ∀ t stop, (Factor.var name indices).check c = .ok t stop →
            ∃ declared, c.env.lookup name = .ok declared ∧
              declared.DepthsWithin (openBrackets (tokenize source file)) ∧
              t.depth + indices.length = declared.depth := by
  have hbrackets : brackets (Stmts.yield program.body) = openBrackets (tokenize source file) :=
    (yields_of_parseProgram h).brackets_eq
  rw [← hbrackets]
  refine ⟨?_, ?_, ?_⟩
  · rw [hbrackets]
    exact Nat.le_trans List.countP_le_length (tokenize_length_le source file)
  · intro c hc
    have hwithin := program.points_within c hc
    exact ⟨fun scope hscope declaration hmem =>
        Ty.depthsWithin_of_brackets (hwithin.declared scope hscope declaration hmem),
      fun result hmem => Ty.depthsWithin_of_brackets (hwithin.results result hmem)⟩
  · rintro ⟨env, part⟩ hsite c rfl
    have hfits := program.sites_fit _ hsite
    refine ⟨fun t ht => Ty.depthsWithin_of_brackets (hfits.answer ht), ?_, ?_⟩
    · -- The literal writes one bracket more than its entries.
      rintro entries rfl e he t stop hrun
      exact Nat.le_trans (Nat.succ_le_succ t.depth_le_brackets) (hfits.entry he hrun)
    · rintro name indices rfl t stop hrun
      have htype := ((Factor.check_keeps (.var name indices) c).of_ok hrun).2
      rw [Factor.typeIn] at htype
      obtain ⟨declared, hdeclared, hindexed⟩ := exists_ok_of_bind htype
      refine ⟨declared, hdeclared, ?_, Typing.depth_of_indexed hindexed⟩
      exact Ty.depthsWithin_of_brackets (hfits.lookup hdeclared)

/-- A text with arrays in arrays, one of which is indexed. -/
def nestedArraysText : String := "let xs : [[int]] <- [[1], []]; let x : int <- xs[0][0];"

/-- The entries of an array literal. -/
def Part.entries? : Part → Option (List Expr)
  | .expr (.array entries) => some entries
  | _ => none

/-- The text has seven opening brackets and three array literals. -/
theorem nestedArrays_depths :
    openBrackets (tokenize nestedArraysText defaultFile) = 7 ∧
      ∃ program, parseProgram (tokenize nestedArraysText defaultFile) defaultFile = .ok program ∧
        (program.sites.filterMap (·.part.entries?)).map List.length = [2, 1, 0] ∧
        (∀ c ∈ program.points, ∀ scope ∈ c.scopes, ∀ declaration ∈ scope,
          declaration.2.DepthsWithin 7) ∧
        ∀ site ∈ program.sites, ∀ c : Context, c.env = site.env →
          ∀ t, site.part.Answers c t → t.DepthsWithin 7 := by
  have hbrackets : openBrackets (tokenize nestedArraysText defaultFile) = 7 := by decide +kernel
  have hliterals : (parseProgram (tokenize nestedArraysText defaultFile) defaultFile).toOption.map
      (fun program => (program.sites.filterMap (·.part.entries?)).map List.length) =
        some [2, 1, 0] := by
    decide +kernel
  refine ⟨hbrackets, ?_⟩
  cases hparse : parseProgram (tokenize nestedArraysText defaultFile) defaultFile with
  | error d =>
    rw [hparse] at hliterals
    cases hliterals
  | ok program =>
    rw [hparse] at hliterals
    have hdepths := depths_bounded hparse
    rw [hbrackets] at hdepths
    obtain ⟨-, hpoints, hsites⟩ := hdepths
    exact ⟨program, rfl, Option.some.inj hliterals, fun c hc => (hpoints c hc).1,
      fun site hsite c hc => (hsites site hsite c hc).1⟩

end FrontEnd
