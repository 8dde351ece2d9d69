import FrontEnd.Proofs.Parsing.Lookahead

/-!
# Every yield is parsed to its tree

- `Production.Complete`: what it means that parsers accept every yield of every phrase.
- `Nonterminal.production_accepts`: one production is complete if those below it are. There is one
  lemma for each production, which follows its text.
- `Nonterminal.parse_eq_ok`: so the parser accepts every yield that ends where it stands.
-/

namespace FrontEnd

open FrontEnd.Parser Nonterminal

namespace Production

variable {n : Nat} {below : ∀ p : Nonterminal, Parser n p.Tree} {rest : List Token}

/-- In front of tokens that do not extend a phrase, the parsers of all phrases accept every yield of
a tree that the phrase makes. -/
def Complete (below : ∀ p : Nonterminal, Parser n p.Tree) : Prop :=
  ∀ (p : Nonterminal) (tree : p.Tree) (ts rest : List Token),
    p.Makes tree → Reads (p.yield tree) ts → p.EndsBefore rest → (below p).Accepts ts tree rest

/-- The base of a type is a primitive type or a function type without array levels. -/
theorem typeBase_accepts (h : Complete below) {t : Ty} {ts : List Token} (hdepth : t.depth = 0)
    (hts : Reads t.yield ts) : (typeBase below).Accepts ts t rest := by
  cases t with
  | prim name d =>
    obtain rfl : d = 0 := hdepth
    simp only [Ty.yield, levels_zero, reads_cons, reads_nil] at hts
    obtain ⟨t, _, rfl, ⟨hkind, rfl⟩, rfl⟩ := hts
    exact .branch_some (by rw [hkind]) .pure
  | fn params result d =>
    obtain rfl : d = 0 := hdepth
    simp only [Ty.yield, levels_zero, List.cons_append, reads_cons, reads_append] at hts
    obtain ⟨op, _, rfl, hop, us, _, rfl, hparams, close, _, rfl, hclose, colon, vs, rfl, hcolon,
      hresult⟩ := hts
    refine .branch_some (by rw [hop]) ?_
    refine .bind (h .params params us _ trivial hparams (endsBefore_cons hclose rfl)) ?_
    refine .skip_bind hclose (.skip_bind hcolon (.map ?_))
    exact h .type result vs rest trivial hresult (endsBefore_of_extending (by decide) rfl)

/-- A type needs no condition on what follows it, for no token can prolong it. -/
theorem Complete.type (h : Complete below) {t : Ty} {ts : List Token} (ht : Reads t.yield ts) :
    (below .type).Accepts ts t rest :=
  h .type t ts rest trivial ht (endsBefore_of_extending (by decide) rfl)

/-- The tokens of a type make the type, array levels outside and base inside. -/
theorem type_accepts (h : Complete below) {t : Ty} {ts : List Token} (ht : Reads t.yield ts) :
    (type below).Accepts ts t rest := by
  cases hdepth : t.depth with
  | zero =>
    -- Only a type under array levels begins with a bracket.
    refine .branchAt_neg ?_ (typeBase_accepts h hdepth ht)
    rw [t.yield_eq_levels, hdepth, levels_zero] at ht
    cases t
    all_goals
      simp only [Ty.withDepth, Ty.yield, levels_zero, List.cons_append, reads_cons] at ht
      obtain ⟨t, _, rfl, ht, -⟩ := ht
      rw [List.cons_append, kindAhead_cons, ht.kind_eq]
      intro heq
      cases heq
  | succ d =>
    obtain ⟨entry, rfl⟩ := Ty.exists_entry hdepth
    simp only [Ty.yield_withDepth_succ, Ty.withDepth_depth, List.cons_append, reads_cons,
      reads_append, reads_nil] at ht
    obtain ⟨op, _, rfl, hop, us, _, rfl, hentry, close, _, rfl, hclose, rfl⟩ := ht
    exact .branchAt_pos hop (.bind (h.type hentry) (.skip_bind hclose .pure))

/-- A parameter may end behind its type, unless a default follows. -/
theorem param_accepts (h : Complete below) {p : Param} {ts : List Token}
    (hp : Reads p.yield ts) (hrest : Nonterminal.param.EndsBefore rest) :
    (param below).Accepts ts p rest := by
  obtain ⟨name, ty, default?⟩ := p
  cases default? with
  | none =>
    simp only [Param.yield, reads_cons] at hp
    obtain ⟨id, _, rfl, ⟨hid, rfl⟩, colon, us, rfl, hcolon, hty⟩ := hp
    refine .after hid (.skip_bind hcolon (.bind_nil (h.type hty) ?_))
    exact .ifAt_neg (hrest.kindAhead_ne rfl) .pure
  | some value =>
    simp only [Param.yield, List.cons_append, reads_cons, reads_append] at hp
    obtain ⟨id, _, rfl, ⟨hid, rfl⟩, colon, _, rfl, hcolon, us, _, rfl, hty, assign, vs, rfl,
      hassign, hvalue⟩ := hp
    refine .after hid (.skip_bind hcolon (.bind (h.type hty) ?_))
    refine .ifAt_pos (congrArg some hassign) (.skip_bind hassign (.map ?_))
    exact h .expr value vs rest trivial hvalue (hrest.mono (by decide))

/-- A list of parameters that is not empty, with its commas. -/
theorem paramList_accepts (h : Complete below) {ps : List Param} {ts : List Token}
    (hne : ps ≠ []) (hps : Reads (Params.yield ps) ts)
    (hrest : Nonterminal.paramList.EndsBefore rest) : (paramList below).Accepts ts ps rest := by
  obtain ⟨p, qs, rfl⟩ := List.exists_cons_of_ne_nil hne
  by_cases hqs : qs = []
  · subst hqs
    rw [Params.yield] at hps
    refine .bind_nil (param_accepts h hps (hrest.mono (by decide))) ?_
    exact .branchAt_neg (hrest.kindAhead_ne rfl) .pure
  · simp only [Params.yield_cons hqs, reads_append, reads_cons] at hps
    obtain ⟨us, _, rfl, hp, comma, vs, rfl, hcomma, hqs'⟩ := hps
    refine .bind (param_accepts h hp (endsBefore_cons hcomma rfl)) ?_
    exact .branchAt_pos hcomma (.map (h .paramList qs vs rest hqs hqs' hrest))

/-- Parameters may also be missing, in front of the closing parenthesis. -/
theorem params_accepts (h : Complete below) {ps : List Param} {ts : List Token}
    (hps : Reads (Params.yield ps) ts) (hrest : Nonterminal.params.EndsBefore rest) :
    (params below).Accepts ts ps rest := by
  by_cases hne : ps = []
  · subst hne
    rw [Params.yield, reads_nil] at hps
    subst hps
    exact .upTo_nil (kindAhead_of_params hrest)
  · refine .upTo ?_ (paramList_accepts h hne hps (hrest.mono (by decide)))
    obtain ⟨id, colon, us, rfl, hid, -⟩ := Params.begins hne hps
    rw [List.cons_append, kindAhead_cons, hid]
    decide

theorem arg_accepts (h : Complete below) {a : Arg} {ts : List Token} (ha : Reads a.yield ts)
    (hrest : Nonterminal.arg.EndsBefore rest) : (arg below).Accepts ts a rest := by
  obtain ⟨name, value⟩ := a
  simp only [Arg.yield, reads_cons] at ha
  obtain ⟨id, _, rfl, ⟨hid, rfl⟩, colon, us, rfl, hcolon, hvalue⟩ := ha
  refine .after hid (.skip_bind hcolon (.map ?_))
  exact h .expr value us rest trivial hvalue (hrest.mono (by decide))

/-- A list of arguments that is not empty, with its commas. -/
theorem argList_accepts (h : Complete below) {as : List Arg} {ts : List Token}
    (hne : as ≠ []) (has : Reads (Args.yield as) ts)
    (hrest : Nonterminal.argList.EndsBefore rest) : (argList below).Accepts ts as rest := by
  obtain ⟨a, bs, rfl⟩ := List.exists_cons_of_ne_nil hne
  by_cases hbs : bs = []
  · subst hbs
    rw [Args.yield] at has
    refine .bind_nil (arg_accepts h has (hrest.mono (by decide))) ?_
    exact .branchAt_neg (hrest.kindAhead_ne rfl) .pure
  · simp only [Args.yield_cons hbs, reads_append, reads_cons] at has
    obtain ⟨us, _, rfl, ha, comma, vs, rfl, hcomma, hbs'⟩ := has
    refine .bind (arg_accepts h ha (endsBefore_cons hcomma rfl)) ?_
    exact .branchAt_pos hcomma (.map (h .argList bs vs rest hbs hbs' hrest))

/-- The arguments of a call, with the parentheses around them. -/
theorem arguments_accepts (h : Complete below) {as : List Arg} {ts : List Token}
    (has : Reads (Nonterminal.arguments.yield as) ts) :
    (arguments below).Accepts ts as rest := by
  simp only [Nonterminal.yield, List.cons_append, reads_cons, reads_append, reads_nil] at has
  obtain ⟨op, _, rfl, hop, us, _, rfl, has, close, _, rfl, hclose, rfl⟩ := has
  refine .after hop (.bind ?_ (.skip_bind hclose .pure))
  by_cases hne : as = []
  · subst hne
    rw [Args.yield, reads_nil] at has
    subst has
    exact .upTo_nil (congrArg some hclose)
  · refine .upTo ?_ (h .argList as us _ hne has (endsBefore_cons hclose rfl))
    obtain ⟨id, us, rfl, hid⟩ := Args.begins hne has
    rw [List.cons_append, kindAhead_cons, hid]
    decide

/-- Indices go on as long as an opening bracket follows. -/
theorem indices_accepts (h : Complete below) {es : List Expr} {ts : List Token}
    (hes : Reads (Indices.yield es) ts) (hrest : Nonterminal.indices.EndsBefore rest) :
    (indices below).Accepts ts es rest := by
  cases es with
  | nil =>
    rw [Indices.yield, reads_nil] at hes
    subst hes
    exact .branchAt_neg (hrest.kindAhead_ne rfl) .pure
  | cons e es =>
    simp only [Indices.yield, List.cons_append, reads_cons, reads_append] at hes
    obtain ⟨op, _, rfl, hop, us, _, rfl, he, close, vs, rfl, hclose, hes⟩ := hes
    refine .branchAt_pos hop (.bind ?_ (.skip_bind hclose (.map ?_)))
    · exact h .expr e us _ trivial he (endsBefore_cons hclose rfl)
    · exact h .indices es vs rest trivial hes hrest

/-- Behind an identifier, an opening parenthesis makes a call and all else a variable. -/
theorem named_accepts (h : Complete below) {id : Token} {f : Factor} {ts : List Token}
    (hmakes : Nonterminal.idFactor.Makes f) (hf : Reads f.yield (id :: ts))
    (hrest : Nonterminal.idFactor.EndsBefore rest) : (named below id).Accepts ts f rest := by
  cases f with
  | var name indices =>
    simp only [Factor.yield, reads_cons] at hf
    obtain ⟨_, _, heq, ⟨-, rfl⟩, hindices⟩ := hf
    cases heq
    -- What follows the name is no parenthesis, so it is not taken for a call.
    refine .ifAt_neg ?_ (.map ?_)
    rotate_left
    · exact h .indices indices ts rest trivial hindices (hrest.mono (by decide))
    cases indices with
    | nil =>
      rw [Indices.yield, reads_nil] at hindices
      subst hindices
      exact hrest.kindAhead_ne rfl
    | cons e es =>
      simp only [Indices.yield, List.cons_append, reads_cons] at hindices
      obtain ⟨op, us, rfl, hop, -⟩ := hindices
      rw [List.cons_append, kindAhead_cons, hop]
      decide
  | call callee args =>
    rw [Factor.yield, List.cons_append] at hf
    obtain ⟨_, _, heq, ⟨-, rfl⟩, hargs⟩ := reads_cons.1 hf
    cases heq
    refine .ifAt_pos ?_ (.map (h .arguments args ts rest trivial hargs
      (endsBefore_of_extending (by decide) rfl)))
    simp only [List.cons_append, reads_cons] at hargs
    obtain ⟨op, us, rfl, hop, -⟩ := hargs
    exact congrArg some hop
  | _ => exact hmakes.elim

theorem idFactor_accepts (h : Complete below) {f : Factor} {ts : List Token}
    (hmakes : Nonterminal.idFactor.Makes f) (hf : Reads f.yield ts)
    (hrest : Nonterminal.idFactor.EndsBefore rest) : (idFactor below).Accepts ts f rest := by
  obtain ⟨id, us, rfl, hid⟩ := Factor.begins_identifier hmakes hf
  exact .after hid (named_accepts h hmakes hf hrest)

/-- A factor is told by its first token. -/
theorem factor_accepts (h : Complete below) {f : Factor} {ts : List Token}
    (hf : Reads f.yield ts) (hrest : Nonterminal.factor.EndsBefore rest) :
    (factor below).Accepts ts f rest := by
  -- Variables and calls share a production, since both begin with a name.
  by_cases hmakes : Nonterminal.idFactor.Makes f
  · obtain ⟨id, us, rfl, hid⟩ := Factor.begins_identifier hmakes hf
    exact .branch_some (by rw [hid]) (named_accepts h hmakes hf hrest)
  cases f with
  | int value =>
    simp only [Factor.yield, reads_cons, reads_nil] at hf
    obtain ⟨t, _, rfl, ⟨hkind, hvalue⟩, rfl⟩ := hf
    refine .branch_some (by rw [hkind]) ?_
    rw [hvalue]
    exact .pure
  | float value =>
    simp only [Factor.yield, reads_cons, reads_nil] at hf
    obtain ⟨t, _, rfl, ⟨hkind, hvalue⟩, rfl⟩ := hf
    refine .branch_some (by rw [hkind]) ?_
    rw [hvalue]
    exact .pure
  | paren inner =>
    simp only [Factor.yield, List.cons_append, reads_cons, reads_append, reads_nil] at hf
    obtain ⟨op, _, rfl, hop, us, _, rfl, hinner, close, _, rfl, hclose, rfl⟩ := hf
    refine .branch_some (by rw [hop]) ?_
    refine .bind ?_ (.skip_bind hclose .pure)
    exact h .expr inner us _ trivial hinner (endsBefore_cons hclose rfl)
  | _ => exact absurd trivial hmakes

/-- A term goes on as long as an operator of products follows. -/
theorem term_accepts (h : Complete below) {a : Term} {ts : List Token} (ha : Reads a.yield ts)
    (hrest : Nonterminal.term.EndsBefore rest) : (term below).Accepts ts a rest := by
  cases a with
  | single factor =>
    rw [Term.yield] at ha
    refine .bind_nil (factor_accepts h ha (hrest.mono (by decide))) ?_
    exact .branchAt_neg (hrest.kindAhead_ne rfl) .pure
  | chain factor mulop next =>
    simp only [Term.yield, reads_append, reads_cons] at ha
    obtain ⟨us, _, rfl, hfactor, op, vs, rfl, ⟨hop, rfl⟩, hnext⟩ := ha
    refine .bind (factor_accepts h hfactor (endsBefore_cons hop rfl)) ?_
    exact .branchAt_pos hop (.map (h .term next vs rest trivial hnext hrest))

/-- A sum goes on as long as an operator of sums follows. -/
theorem addExpr_accepts (h : Complete below) {a : AddExpr} {ts : List Token}
    (ha : Reads a.yield ts) (hrest : Nonterminal.addExpr.EndsBefore rest) :
    (addExpr below).Accepts ts a rest := by
  cases a with
  | single term =>
    rw [AddExpr.yield] at ha
    refine .bind_nil (term_accepts h ha (hrest.mono (by decide))) ?_
    exact .branchAt_neg (hrest.kindAhead_ne rfl) .pure
  | chain term addop next =>
    simp only [AddExpr.yield, reads_append, reads_cons] at ha
    obtain ⟨us, _, rfl, hterm, op, vs, rfl, ⟨hop, rfl⟩, hnext⟩ := ha
    refine .bind (term_accepts h hterm (endsBefore_cons hop rfl)) ?_
    exact .branchAt_pos hop (.map (h .addExpr next vs rest trivial hnext hrest))

/-- A condition behind the sum that is read first, up to the last comparison. -/
theorem comparison_accepts (h : Complete below) {c : Condition} {ts : List Token}
    (keyword : String) (hc : Reads c.yield ts) (hrest : Nonterminal.condition.EndsBefore rest) :
    (comparison below keyword).Accepts ts c rest := by
  refine .cursor_bind fun last => .bind_nil (a := .cond c) ?_ .pure
  refine h .condition (.cond c) ts rest trivial ?_ hrest
  show Reads (Expr.yield (.cond c)) ts
  rwa [Expr.yield]

/-- A condition or a sum, told by whether a comparison follows the first sum. -/
theorem condition_accepts (h : Complete below) {e : Expr} {ts : List Token}
    (hmakes : Nonterminal.condition.Makes e) (he : Reads e.yield ts)
    (hrest : Nonterminal.condition.EndsBefore rest) : (condition below).Accepts ts e rest := by
  cases e with
  | add sum =>
    rw [Expr.yield] at he
    refine .bind_nil (addExpr_accepts h he (hrest.mono (by decide))) ?_
    exact .branchAt_neg (hrest.kindAhead_ne rfl) .pure
  | cond condition =>
    rw [Expr.yield] at he
    cases condition with
    | single left relop right =>
      simp only [Condition.yield, reads_append, reads_cons] at he
      obtain ⟨us, _, rfl, hleft, op, vs, rfl, ⟨hop, rfl⟩, hright⟩ := he
      refine .bind (addExpr_accepts h hleft (endsBefore_cons hop rfl)) (.branchAt_pos hop ?_)
      refine .bind_nil (h .addExpr right vs rest trivial hright (hrest.mono (by decide))) ?_
      exact .ifAt_neg (hrest.kindAhead_ne rfl) .pure
    | chain left relop right boolop next =>
      simp only [Condition.yield, List.append_assoc, List.cons_append, reads_append,
        reads_cons] at he
      obtain ⟨us, _, rfl, hleft, op, _, rfl, ⟨hop, rfl⟩, vs, _, rfl, hright, join, ws, rfl,
        ⟨hjoin, rfl⟩, hnext⟩ := he
      refine .bind (addExpr_accepts h hleft (endsBefore_cons hop rfl)) (.branchAt_pos hop ?_)
      refine .bind (h .addExpr right vs _ trivial hright (endsBefore_cons hjoin rfl)) ?_
      refine .ifAt_pos (congrArg some hjoin) (.expect_bind hjoin (.map ?_))
      exact comparison_accepts h join.value hnext hrest
  | _ => exact hmakes.elim

/-- The entries of an array literal, empty or not, with the brackets around them. -/
theorem array_accepts (h : Complete below) {es : List Expr} {ts : List Token}
    (hes : Reads (Expr.yield (.array es)) ts) : (array below).Accepts ts (.array es) rest := by
  simp only [Expr.yield, List.cons_append, reads_cons, reads_append, reads_nil] at hes
  obtain ⟨op, _, rfl, hop, us, _, rfl, hes, close, _, rfl, hclose, rfl⟩ := hes
  refine .after hop (.bind ?_ (.skip_bind hclose .pure))
  by_cases hne : es = []
  · subst hne
    rw [Exprs.yield, reads_nil] at hes
    subst hes
    exact .upTo_nil (congrArg some hclose)
  · have hcolon : kindAhead (close :: rest) ≠ some .colon := by
      rw [kindAhead_cons, hclose]
      decide
    refine .upTo ?_ (h .exprList es us _ hne hes (endsBefore_cons hclose rfl))
    exact (Exprs.begins hne hes hcolon).kindAhead_ne (by decide)

/-- A closure, which a look past the opening parenthesis has told from a factor. -/
theorem closure_accepts (h : Complete below) {params : List Param} {result : Ty}
    {body : List Stmt} {ts : List Token}
    (hts : Reads (Expr.yield (.closure params result body)) ts) :
    (closure below).Accepts ts (.closure params result body) rest := by
  simp only [Expr.yield, List.cons_append, List.append_assoc, reads_cons, reads_append,
    reads_nil] at hts
  obtain ⟨op, _, rfl, hop, us, _, rfl, hparams, close, _, rfl, hclose, colon, _, rfl, hcolon, vs,
    _, rfl, hresult, assign, _, rfl, hassign, left, _, rfl, hleft, ws, _, rfl, hbody, right, _,
    rfl, hright, rfl⟩ := hts
  refine .after hop (.bind ?_ (.skip_bind hclose (.skip_bind hcolon (.bind (h.type hresult)
    (.skip_bind hassign (.skip_bind hleft (.bind ?_ (.skip_bind hright .pure))))))))
  · exact h .params params us _ trivial hparams (endsBefore_cons hclose rfl)
  · exact h .stmts body ws _ trivial hbody (endsBefore_cons hright rfl)

/-- An expression of any form: its first tokens tell which. -/
theorem expr_accepts (h : Complete below) {e : Expr} {ts : List Token} (he : Reads e.yield ts)
    (hrest : Nonterminal.expr.EndsBefore rest) : (expr below).Accepts ts e rest := by
  refine .cursor_bind fun last => ?_
  rw [isAt_eq]
  cases e with
  | array entries =>
    have hop : kindAhead (ts ++ rest) = some .openBracket := by
      simp only [Expr.yield, List.cons_append, reads_cons] at he
      obtain ⟨op, us, rfl, hop, -⟩ := he
      exact congrArg some hop
    rw [if_pos (beq_iff_eq.2 hop)]
    exact array_accepts h he
  | closure params result body =>
    have he' := he
    simp only [Expr.yield, List.cons_append, List.append_assoc, reads_cons, reads_append] at he'
    obtain ⟨op, _, rfl, hop, us, _, rfl, hparams, close, vs, rfl, hclose, -⟩ := he'
    have hbracket : kindAhead (op :: (us ++ close :: vs) ++ rest) ≠ some .openBracket := by
      rw [List.cons_append, kindAhead_cons, hop]
      decide
    have hopens := Params.opensClosure hop hparams hclose (vs ++ rest) last
    rw [if_neg (mt beq_iff_eq.1 hbracket)]
    simp only [List.cons_append, List.append_assoc] at he ⊢
    rw [if_pos hopens]
    exact closure_accepts h he
  | _ =>
    -- A condition may begin with a parenthesis too, but then the two tokens behind it differ from
    -- those of a closure.
    have hlead : LeadsWithFactor ts := Expr.leads he trivial
    rw [if_neg (mt beq_iff_eq.1 (hlead.kindAhead_ne_openBracket rest)),
      if_neg (by rw [hlead.not_opensClosure]; decide)]
    exact condition_accepts h trivial he (hrest.mono (by decide))

/-- A list of expressions that is not empty, with its commas. -/
theorem exprList_accepts (h : Complete below) {es : List Expr} {ts : List Token}
    (hne : es ≠ []) (hes : Reads (Exprs.yield es) ts)
    (hrest : Nonterminal.exprList.EndsBefore rest) : (exprList below).Accepts ts es rest := by
  obtain ⟨e, fs, rfl⟩ := List.exists_cons_of_ne_nil hne
  by_cases hfs : fs = []
  · subst hfs
    rw [Exprs.yield] at hes
    refine .bind_nil (expr_accepts h hes (hrest.mono (by decide))) ?_
    exact .branchAt_neg (hrest.kindAhead_ne rfl) .pure
  · simp only [Exprs.yield_cons hfs, reads_append, reads_cons] at hes
    obtain ⟨us, _, rfl, he, comma, vs, rfl, hcomma, hfs'⟩ := hes
    refine .bind (expr_accepts h he (endsBefore_cons hcomma rfl)) ?_
    exact .branchAt_pos hcomma (.map (h .exprList fs vs rest hfs hfs' hrest))

/-! ## Statements

The rest of a statement behind the token that started it. -/

/-- The end of a statement is marked, so nothing behind it matters. -/
theorem ifRest_accepts (h : Complete below) (rest : List Token) {s : Stmt} {t : Token}
    {ts : List Token} (hs : Reads s.yield (t :: ts)) (hmakes : Nonterminal.ifStmt.Makes s) :
    t.kind = .kwIf ∧ (ifRest below).Accepts ts s rest := by
  cases s with
  | ifThen condition body =>
    simp only [Stmt.yield, List.cons_append, List.append_assoc, reads_cons, reads_append,
      reads_nil] at hs
    obtain ⟨_, _, heq, hif, us, _, rfl, hcondition, kwThen, _, rfl, hthen, vs, _, rfl, hbody, fi,
      _, rfl, hfi, rfl⟩ := hs
    cases heq
    refine ⟨hif, .bind ?_ (.skip_bind hthen (.bind ?_ (.ifAt_neg ?_ (.skip_bind hfi .pure))))⟩
    · exact comparison_accepts h _ hcondition (endsBefore_cons hthen rfl)
    · exact h .stmts body vs _ trivial hbody (endsBefore_cons hfi rfl)
    · rw [List.cons_append, kindAhead_cons, hfi]
      decide
  | ifElse condition body otherwise =>
    simp only [Stmt.yield, List.cons_append, List.append_assoc, reads_cons, reads_append,
      reads_nil] at hs
    obtain ⟨_, _, heq, hif, us, _, rfl, hcondition, kwThen, _, rfl, hthen, vs, _, rfl, hbody,
      kwElse, _, rfl, helse, ws, _, rfl, hotherwise, fi, _, rfl, hfi, rfl⟩ := hs
    cases heq
    refine ⟨hif, .bind ?_ (.skip_bind hthen (.bind ?_ (.ifAt_pos (congrArg some helse)
      (.skip_bind helse (.bind ?_ (.skip_bind hfi .pure))))))⟩
    · exact comparison_accepts h _ hcondition (endsBefore_cons hthen rfl)
    · exact h .stmts body vs _ trivial hbody (endsBefore_cons helse rfl)
    · exact h .stmts otherwise ws _ trivial hotherwise (endsBefore_cons hfi rfl)
  | _ => exact hmakes.elim

/-- A loop behind its keyword. -/
theorem whileRest_accepts (h : Complete below) (rest : List Token) {s : Stmt} {t : Token}
    {ts : List Token} (hs : Reads s.yield (t :: ts)) (hmakes : Nonterminal.whileStmt.Makes s) :
    t.kind = .kwWhile ∧ (whileRest below).Accepts ts s rest := by
  cases s with
  | loop condition body =>
    simp only [Stmt.yield, List.cons_append, List.append_assoc, reads_cons, reads_append,
      reads_nil] at hs
    obtain ⟨_, _, heq, hwhile, us, _, rfl, hcondition, kwDo, _, rfl, hdo, vs, _, rfl, hbody, done,
      _, rfl, hdone, rfl⟩ := hs
    cases heq
    refine ⟨hwhile, .bind ?_ (.skip_bind hdo (.bind ?_ (.skip_bind hdone .pure)))⟩
    · exact comparison_accepts h _ hcondition (endsBefore_cons hdo rfl)
    · exact h .stmts body vs _ trivial hbody (endsBefore_cons hdone rfl)
  | _ => exact hmakes.elim

/-- An assignment or a call behind its name. -/
theorem idRest_accepts (h : Complete below) (rest : List Token) {s : Stmt} {t : Token}
    {ts : List Token} (hs : Reads s.yield (t :: ts)) (hmakes : Nonterminal.idStmt.Makes s) :
    t.kind = .identifier ∧ (idRest below t).Accepts ts s rest := by
  cases s with
  | assign name value =>
    simp only [Stmt.yield, List.cons_append, reads_cons, reads_append, reads_nil] at hs
    obtain ⟨_, _, heq, ⟨hid, rfl⟩, assign, _, rfl, hassign, us, _, rfl, hvalue, semi, _, rfl,
      hsemi, rfl⟩ := hs
    cases heq
    refine ⟨hid, .ifAt_pos (congrArg some hassign) (.skip_bind hassign (.bind ?_
      (.skip_bind hsemi .pure)))⟩
    exact h .expr value us _ trivial hvalue (endsBefore_cons hsemi rfl)
  | call callee args =>
    have hrow : Stmt.yield (.call callee args) =
        .word .identifier callee :: (Nonterminal.arguments.yield args ++ [.mark .semicolon]) := by
      simp [Stmt.yield, Nonterminal.yield]
    rw [hrow] at hs
    simp only [reads_cons, reads_append, reads_nil] at hs
    obtain ⟨_, _, heq, ⟨hid, rfl⟩, us, _, rfl, hargs, semi, _, rfl, hsemi, rfl⟩ := hs
    cases heq
    refine ⟨hid, .ifAt_neg ?_ (.bind ?_ (.skip_bind hsemi .pure))⟩
    -- A parenthesis behind the name tells a call from an assignment.
    · simp only [Nonterminal.yield, List.cons_append, reads_cons] at hargs
      obtain ⟨op, us, rfl, hop, -⟩ := hargs
      rw [List.cons_append, List.cons_append, kindAhead_cons, hop]
      decide
    · exact h .arguments args us _ trivial hargs (endsBefore_of_extending (by decide) rfl)
  | _ => exact hmakes.elim

/-- A return behind its keyword. -/
theorem returnRest_accepts (h : Complete below) (rest : List Token) {s : Stmt} {t : Token}
    {ts : List Token} (hs : Reads s.yield (t :: ts)) (hmakes : Nonterminal.returnStmt.Makes s) :
    t.kind = .kwReturn ∧ (returnRest below).Accepts ts s rest := by
  cases s with
  | ret value =>
    simp only [Stmt.yield, List.cons_append, reads_cons, reads_append, reads_nil] at hs
    obtain ⟨_, _, heq, hreturn, us, _, rfl, hvalue, semi, _, rfl, hsemi, rfl⟩ := hs
    cases heq
    refine ⟨hreturn, .bind ?_ (.skip_bind hsemi .pure)⟩
    exact h .expr value us _ trivial hvalue (endsBefore_cons hsemi rfl)
  | _ => exact hmakes.elim

/-- The declaration of a variable behind its keyword. -/
theorem letRest_accepts (h : Complete below) (rest : List Token) {s : Stmt} {t : Token}
    {ts : List Token} (hs : Reads s.yield (t :: ts)) (hmakes : Nonterminal.letStmt.Makes s) :
    t.kind = .kwLet ∧ (letRest below).Accepts ts s rest := by
  cases s with
  | letVar name type value =>
    simp only [Stmt.yield, List.cons_append, List.append_assoc, reads_cons, reads_append,
      reads_nil] at hs
    obtain ⟨_, _, heq, hlet, id, _, rfl, ⟨hid, rfl⟩, colon, _, rfl, hcolon, us, _, rfl, htype,
      assign, _, rfl, hassign, vs, _, rfl, hvalue, semi, _, rfl, hsemi, rfl⟩ := hs
    cases heq
    refine ⟨hlet, .expect_bind hid (.skip_bind hcolon (.bind (h.type htype)
      (.skip_bind hassign (.bind ?_ (.skip_bind hsemi .pure)))))⟩
    exact h .expr value vs _ trivial hvalue (endsBefore_cons hsemi rfl)
  | _ => exact hmakes.elim

/-- The declaration of a function behind its keyword. -/
theorem funRest_accepts (h : Complete below) (rest : List Token) {s : Stmt} {t : Token}
    {ts : List Token} (hs : Reads s.yield (t :: ts)) (hmakes : Nonterminal.funStmt.Makes s) :
    t.kind = .kwFun ∧ (funRest below).Accepts ts s rest := by
  cases s with
  | letFun name params result body =>
    simp only [Stmt.yield, List.cons_append, List.append_assoc, reads_cons, reads_append,
      reads_nil] at hs
    obtain ⟨_, _, heq, hfun, id, _, rfl, ⟨hid, rfl⟩, op, _, rfl, hop, us, _, rfl, hparams, close,
      _, rfl, hclose, colon, _, rfl, hcolon, vs, _, rfl, hresult, assign, _, rfl, hassign, kwBegin,
      _, rfl, hbegin, ws, _, rfl, hbody, kwEnd, _, rfl, hend, rfl⟩ := hs
    cases heq
    refine ⟨hfun, .expect_bind hid (.skip_bind hop (.bind ?_ (.skip_bind hclose (.skip_bind hcolon
      (.bind (h.type hresult) (.skip_bind hassign (.skip_bind hbegin (.bind ?_
      (.skip_bind hend .pure)))))))))⟩
    · exact h .params params us _ trivial hparams (endsBefore_cons hclose rfl)
    · exact h .stmts body ws _ trivial hbody (endsBefore_cons hend rfl)
  | _ => exact hmakes.elim

/-- The first token of a statement tells its form. -/
theorem stmtRest_accepts (h : Complete below) (rest : List Token) {s : Stmt} {t : Token}
    {ts : List Token} (hs : Reads s.yield (t :: ts)) :
    ∃ p, stmtRest below t = some p ∧ p.Accepts ts s rest := by
  unfold stmtRest
  cases s with
  | ifThen | ifElse =>
    obtain ⟨ht, hrest⟩ := ifRest_accepts h rest hs trivial
    exact ⟨_, by rw [ht], hrest⟩
  | loop =>
    obtain ⟨ht, hrest⟩ := whileRest_accepts h rest hs trivial
    exact ⟨_, by rw [ht], hrest⟩
  | assign | call =>
    obtain ⟨ht, hrest⟩ := idRest_accepts h rest hs trivial
    exact ⟨_, by rw [ht], hrest⟩
  | ret =>
    obtain ⟨ht, hrest⟩ := returnRest_accepts h rest hs trivial
    exact ⟨_, by rw [ht], hrest⟩
  | letVar =>
    obtain ⟨ht, hrest⟩ := letRest_accepts h rest hs trivial
    exact ⟨_, by rw [ht], hrest⟩
  | letFun =>
    obtain ⟨ht, hrest⟩ := funRest_accepts h rest hs trivial
    exact ⟨_, by rw [ht], hrest⟩

/-- What may follow statements opens no other statement, so the list ends there. -/
theorem stmtRest_eq_none {t : Token} {us : List Token}
    (h : Nonterminal.stmts.EndsBefore (t :: us)) : stmtRest below t = none := by
  unfold stmtRest
  split
  case h_7 => rfl
  all_goals
    next hkind => exact absurd (congrArg some hkind) (h.kindAhead_ne rfl)

/-- A statement, or none where nothing opens one. -/
theorem stmt_accepts (h : Complete below) {s : Option Stmt} {ts : List Token}
    (hs : Reads (Nonterminal.stmt.yield s) ts) (hrest : Nonterminal.stmt.EndsBefore rest) :
    (stmt below).Accepts ts s rest := by
  cases s with
  | none =>
    obtain rfl := reads_nil.1 hs
    refine .branch_none (fun t us heq => ?_) .pure
    obtain rfl : rest = t :: us := heq
    exact Option.map_eq_none_iff.2 (stmtRest_eq_none (hrest.mono (by decide)))
  | some s =>
    obtain ⟨t, us, rfl⟩ := s.begins hs
    obtain ⟨p, hp, haccepts⟩ := stmtRest_accepts h rest hs
    refine .branch_some (by rw [hp]; rfl) ?_
    exact .map haccepts

/-- Statements go on until no other one opens. -/
theorem stmts_accepts (h : Complete below) {ss : List Stmt} {ts : List Token}
    (hss : Reads (Stmts.yield ss) ts) (hrest : Nonterminal.stmts.EndsBefore rest) :
    (stmts below).Accepts ts ss rest := by
  cases ss with
  | nil =>
    -- The list ends in front of a token that starts no statement.
    rw [Stmts.yield, reads_nil] at hss
    subst hss
    refine .branch_none (fun t us heq => ?_) .pure
    obtain rfl : rest = t :: us := heq
    exact Option.map_eq_none_iff.2 (stmtRest_eq_none hrest)
  | cons s ss =>
    -- A statement is marked at its end, so the statements behind it may begin with anything.
    rw [Stmts.yield] at hss
    obtain ⟨us, vs, rfl, hs, htail⟩ := reads_append.1 hss
    obtain ⟨t, us, rfl⟩ := s.begins hs
    obtain ⟨p, hp, haccepts⟩ := stmtRest_accepts h (vs ++ rest) hs
    refine .branch_some (by rw [hp]; rfl) ?_
    exact .bind haccepts (.map (h .stmts ss vs rest trivial htail hrest))

end Production

namespace Nonterminal

open Production

/-- A statement that starts with a keyword is parsed like the rest behind the keyword. -/
theorem keyword_accepts {n : Nat} {kind : TokenKind} {rest : Token → Parser n Stmt} {s : Stmt}
    {ts us : List Token} (hs : Reads s.yield ts)
    (hrest : ∀ t vs, Reads s.yield (t :: vs) → t.kind = kind ∧ (rest t).Accepts vs s us) :
    (after kind rest).Accepts ts s us := by
  obtain ⟨t, vs, rfl⟩ := s.begins hs
  obtain ⟨ht, haccepts⟩ := hrest t vs hs
  exact .after ht haccepts

/-- If the parsers below a bound are complete, so are those at the bound. -/
theorem production_accepts {n : Nat} {below : ∀ p : Nonterminal, Parser n p.Tree}
    (h : Complete below) : Complete fun p => production below p := by
  intro p tree ts rest hmakes hts hrest
  cases p with
  | type => exact type_accepts h hts
  | typeBase => exact typeBase_accepts h hmakes hts
  | params => exact params_accepts h hts hrest
  | paramList => exact paramList_accepts h hmakes hts hrest
  | param => exact param_accepts h hts hrest
  | expr => exact expr_accepts h hts hrest
  | condition => exact condition_accepts h hmakes hts hrest
  | array =>
    cases tree with
    | array es => exact array_accepts h hts
    | _ => exact hmakes.elim
  | exprList => exact exprList_accepts h hmakes hts hrest
  | closure =>
    cases tree with
    | closure params result body => exact closure_accepts h hts
    | _ => exact hmakes.elim
  | addExpr => exact addExpr_accepts h hts hrest
  | term => exact term_accepts h hts hrest
  | factor => exact factor_accepts h hts hrest
  | idFactor => exact idFactor_accepts h hmakes hts hrest
  | indices => exact indices_accepts h hts hrest
  | arguments => exact arguments_accepts h hts
  | argList => exact argList_accepts h hmakes hts hrest
  | arg => exact arg_accepts h hts hrest
  | stmts => exact stmts_accepts h hts hrest
  | stmt => exact stmt_accepts h hts hrest
  | ifStmt => exact keyword_accepts hts fun _ _ hs => ifRest_accepts h rest hs hmakes
  | whileStmt => exact keyword_accepts hts fun _ _ hs => whileRest_accepts h rest hs hmakes
  | idStmt => exact keyword_accepts hts fun _ _ hs => idRest_accepts h rest hs hmakes
  | returnStmt => exact keyword_accepts hts fun _ _ hs => returnRest_accepts h rest hs hmakes
  | letStmt => exact keyword_accepts hts fun _ _ hs => letRest_accepts h rest hs hmakes
  | funStmt => exact keyword_accepts hts fun _ _ hs => funRest_accepts h rest hs hmakes

/-- **Completeness**: at every bound, a yield in front of tokens that do not extend it leads the
parser to its tree. -/
theorem parser_accepts : ∀ n : Nat, Complete (parser n)
  | 0 => fun _ _ _ _ _ _ _ _ h => absurd h (Nat.not_lt_zero _)
  | n + 1 => production_accepts (parser_accepts n)

/-- **Completeness**: tokens of the yield of a tree make the tree, if what follows may follow it. -/
theorem parse_eq_ok (p : Nonterminal) {tree : p.Tree} {ts rest : List Token}
    (hmakes : p.Makes tree) (hts : Reads (p.yield tree) ts) (hrest : p.EndsBefore rest)
    (last : Position) : p.parse ⟨ts ++ rest, last⟩ = (.ok tree, ⟨rest, last⟩) :=
  Accepts.run (fun n => parser_accepts n p tree ts rest hmakes hts hrest) last

end Nonterminal

end FrontEnd
