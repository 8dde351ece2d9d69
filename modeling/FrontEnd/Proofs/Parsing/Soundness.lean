import FrontEnd.Proofs.Grammar.Phrases
import FrontEnd.Proofs.Parsing.Prediction

/-!
# The parser of a phrase predicts the phrase

- `Production.Predictive`: the parsers of all phrases predict their phrases.
- `Nonterminal.production_predictive`: productions are predictive if the parsers below them are.
- `Nonterminal.parser_predictive`: so the parsers of all phrases are, at every bound.
- `Nonterminal.derives_of_parse`: whatever is parsed is a phrase made of the tokens consumed.

A production is put together from parsers that predict, with two exceptions. A comparison keeps the
place where it started for its diagnostic, and an expression looks at up to three tokens to tell a
closure from parentheses. Whichever it takes these for, they are consumed.
-/

namespace FrontEnd

open FrontEnd.Parser

/-- Every phrase has an instance, so no tokens at all begin one. -/
theorem Nonterminal.viable_nil (p : Nonterminal) : Viable p.Derives [] :=
  p.exists_derives

namespace Production

variable {n m : Nat} {below : ∀ p : Nonterminal, Parser n p.Tree}
  {below' : ∀ p : Nonterminal, Parser m p.Tree}

/-- The parsers of all phrases predict their phrases. A name that parameters or an expression begin
with is consumed, whatever comes behind it. -/
structure Predictive (below : ∀ p : Nonterminal, Parser n p.Tree)
    (below' : ∀ p : Nonterminal, Parser m p.Tree) : Prop where
  predicts : ∀ p : Nonterminal, (below p).Predicts (below' p) p.Derives
  params_takes : (below .params).Takes [.identifier]
  expr_takes : (below .expr).Takes [.identifier]

/-- In front of no tokens there is nothing that a parser could leave. -/
theorem Predictive.takes_nil (h : Predictive below below') (p : Nonterminal) :
    (below p).Takes [] :=
  (h.predicts p).steady.takes_nil

/-- A base type is told from a function type by its first token. -/
theorem typeBase_predicts (h : Predictive below below') :
    (typeBase below).Predicts (typeBase below') Nonterminal.typeBase.Derives := by
  refine .branch (fun t => ?_) (.unexpected (Nonterminal.viable_nil .typeBase))
  split
  · next hkind =>
    refine .some (.pure ⟨rfl, ?_⟩)
    show Reads (Ty.yield (.prim t.value 0)) [t]
    rw [Ty.yield, levels_zero]
    exact .cons ⟨hkind, rfl⟩ .nil
  · next hkind =>
    refine .some (Predicts.toFollows (.bind (h.predicts .params) fun params us hparams =>
      .skip_bind fun close hclose => .skip_bind fun colon hcolon =>
      .map (h.predicts .type) fun result vs hresult => ⟨rfl, ?_⟩))
    show Reads (Ty.yield (.fn params result 0)) _
    rw [Ty.yield, levels_zero]
    exact .cons hkind (hparams.2.append (.cons hclose (.cons hcolon hresult.2)))
  · exact .none

/-- A type consumes its brackets in pairs, as many behind the base as in front of it. -/
theorem type_predicts (h : Predictive below below') :
    (type below).Predicts (type below') Nonterminal.type.Derives := by
  refine .branchAt (fun t ht => ?_) ((typeBase_predicts h).mono fun _ _ h => ⟨trivial, h.2⟩)
  refine .bind (h.predicts .type) fun entry us hentry => .skip_bind fun close hclose =>
    .pure ⟨trivial, ?_⟩
  show Reads (Ty.yield (entry.withDepth (entry.depth + 1))) _
  rw [Ty.yield_withDepth_succ, Ty.withDepth_depth]
  exact .cons ht (hentry.2.append (.cons hclose .nil))

/-- Behind the type of a parameter, an assignment alone leads on to a default. -/
theorem param_predicts (h : Predictive below below') :
    (param below).Predicts (param below') Nonterminal.param.Derives := by
  refine .after fun id hid => .skip_bind fun colon hcolon =>
    .bind (h.predicts .type) fun ty us hty => .ifAt ?_ ?_
  · refine .skip_bind fun assign hassign => .map (h.predicts .expr) fun value vs hvalue =>
      ⟨trivial, ?_⟩
    show Reads (Param.yield ⟨id.value, ty, some value⟩) _
    rw [Param.yield]
    exact .cons ⟨hid, rfl⟩ (.cons hcolon (hty.2.append (.cons hassign hvalue.2)))
  · refine .pure ⟨trivial, ?_⟩
    show Reads (Param.yield ⟨id.value, ty, none⟩) _
    rw [Param.yield, List.append_nil]
    exact .cons ⟨hid, rfl⟩ (.cons hcolon hty.2)

/-- A list of parameters goes on behind a comma, and nothing else continues it. -/
theorem paramList_predicts (h : Predictive below below') :
    (paramList below).Predicts (paramList below') Nonterminal.paramList.Derives := by
  refine .bind (param_predicts h) fun first us hfirst => .branchAt (fun comma hcomma => ?_) ?_
  · refine .map (h.predicts .paramList) fun rest vs hrest => ⟨List.cons_ne_nil _ _, ?_⟩
    show Reads (Params.yield (first :: rest)) _
    rw [Params.yield_cons hrest.1]
    exact hfirst.2.append (.cons hcomma hrest.2)
  · refine .pure ⟨List.cons_ne_nil _ _, ?_⟩
    show Reads (Params.yield [first]) _
    rw [Params.yield, List.append_nil]
    exact hfirst.2

/-- Parameters may be missing in front of a closing parenthesis. -/
theorem params_predicts (h : Predictive below below') :
    (params below).Predicts (params below') Nonterminal.params.Derives :=
  .upTo ⟨trivial, .nil⟩ ((paramList_predicts h).mono fun _ _ h => ⟨trivial, h.2⟩)

theorem arg_predicts (h : Predictive below below') :
    (arg below).Predicts (arg below') Nonterminal.arg.Derives := by
  refine .after fun id hid => .skip_bind fun colon hcolon =>
    .map (h.predicts .expr) fun value us hvalue => ⟨trivial, ?_⟩
  show Reads (Arg.yield ⟨id.value, value⟩) _
  rw [Arg.yield]
  exact .cons ⟨hid, rfl⟩ (.cons hcolon hvalue.2)

/-- A list of arguments goes on behind a comma, and nothing else continues it. -/
theorem argList_predicts (h : Predictive below below') :
    (argList below).Predicts (argList below') Nonterminal.argList.Derives := by
  refine .bind (arg_predicts h) fun first us hfirst => .branchAt (fun comma hcomma => ?_) ?_
  · refine .map (h.predicts .argList) fun rest vs hrest => ⟨List.cons_ne_nil _ _, ?_⟩
    show Reads (Args.yield (first :: rest)) _
    rw [Args.yield_cons hrest.1]
    exact hfirst.2.append (.cons hcomma hrest.2)
  · refine .pure ⟨List.cons_ne_nil _ _, ?_⟩
    show Reads (Args.yield [first]) _
    rw [Args.yield, List.append_nil]
    exact hfirst.2

/-- The arguments of a call end at the closing parenthesis that belongs to it. -/
theorem arguments_predicts (h : Predictive below below') :
    (arguments below).Predicts (arguments below') Nonterminal.arguments.Derives := by
  refine .after fun op hop => .bind (S := fun args ts => Reads (Args.yield args) ts)
    (.upTo .nil ((h.predicts .argList).mono fun _ _ h => h.2)) fun args us hargs =>
    .skip_bind fun close hclose => .pure ⟨trivial, ?_⟩
  exact .cons hop (hargs.append (.cons hclose .nil))

/-- Indices go on at an opening bracket, one by one. -/
theorem indices_predicts (h : Predictive below below') :
    (indices below).Predicts (indices below') Nonterminal.indices.Derives := by
  refine .branchAt (fun op hop => ?_) (.pure ⟨trivial, .nil⟩)
  refine .bind (h.predicts .expr) fun index us hindex => .skip_bind fun close hclose =>
    .map (h.predicts .indices) fun rest vs hrest => ⟨trivial, ?_⟩
  show Reads (Indices.yield (index :: rest)) _
  rw [Indices.yield]
  exact .cons hop (hindex.2.append (.cons hclose hrest.2))

/-- After a name, the rest of a variable or a call. -/
theorem named_predicts (h : Predictive below below') {id : Token} (hid : id.kind = .identifier) :
    (named below id).Predicts (named below' id)
      fun f ts => Nonterminal.idFactor.Derives f (id :: ts) := by
  refine .ifAt ?_ ?_
  · refine .map (h.predicts .arguments) fun args us hargs => ⟨trivial, ?_⟩
    show Reads (Factor.yield (.call id.value args)) _
    rw [Factor.yield]
    exact .cons ⟨hid, rfl⟩ hargs.2
  · refine .map (h.predicts .indices) fun indices us hindices => ⟨trivial, ?_⟩
    show Reads (Factor.yield (.var id.value indices)) _
    rw [Factor.yield]
    exact .cons ⟨hid, rfl⟩ hindices.2

/-- A variable or a call begins with its name. -/
theorem idFactor_predicts (h : Predictive below below') :
    (idFactor below).Predicts (idFactor below') Nonterminal.idFactor.Derives :=
  .after fun _ hid => named_predicts h hid

/-- A literal answers what its token can be read as. -/
theorem literal_follows {t : Token} {value : Option Factor} {R : Factor → List Token → Prop}
    (hR : ∀ f, value = some f → R f []) :
    (literal t value : Parser n Factor).Follows (literal t value : Parser m Factor) R := by
  cases value with
  | none => exact .throw rfl
  | some f => exact .pure (hR f rfl)

/-- The first token of a factor settles its form. A numeral that stands for no number is noticed
behind it. -/
theorem factor_predicts (h : Predictive below below') :
    (factor below).Predicts (factor below') Nonterminal.factor.Derives := by
  refine .branch (fun t => ?_) (.unexpected (Nonterminal.viable_nil .factor))
  split
  · next hkind =>
    exact .some ((named_predicts h hkind).mono fun _ _ h => ⟨trivial, h.2⟩).toFollows
  · next hkind =>
    refine .some (literal_follows fun f hf => ⟨trivial, ?_⟩)
    obtain ⟨i, hi, rfl⟩ := Option.map_eq_some_iff.1 hf
    show Reads (Factor.yield (.int i)) [t]
    rw [Factor.yield]
    exact .cons ⟨hkind, hi⟩ .nil
  · next hkind =>
    refine .some (literal_follows fun f hf => ⟨trivial, ?_⟩)
    obtain ⟨x, hx, rfl⟩ := Option.map_eq_some_iff.1 hf
    show Reads (Factor.yield (.float x)) [t]
    rw [Factor.yield]
    exact .cons ⟨hkind, hx⟩ .nil
  · next hkind =>
    refine .some (Predicts.toFollows (.bind (h.predicts .expr) fun inner us hinner =>
      .skip_bind fun close hclose => .pure ⟨trivial, ?_⟩))
    show Reads (Factor.yield (.paren inner)) _
    rw [Factor.yield]
    exact .cons hkind (hinner.2.append (.cons hclose .nil))
  · exact .none

/-- A term goes on behind an operator of products, with a whole term. -/
theorem term_predicts (h : Predictive below below') :
    (term below).Predicts (term below') Nonterminal.term.Derives := by
  refine .bind (factor_predicts h) fun head us hhead => .branchAt (fun op hop => ?_) ?_
  · refine .map (h.predicts .term) fun rest vs hrest => ⟨trivial, ?_⟩
    show Reads (Term.yield (.chain head op.value rest)) _
    rw [Term.yield]
    exact hhead.2.append (.cons ⟨hop, rfl⟩ hrest.2)
  · refine .pure ⟨trivial, ?_⟩
    show Reads (Term.yield (.single head)) _
    rw [Term.yield, List.append_nil]
    exact hhead.2

/-- A sum goes on behind an operator of sums, with a whole sum. -/
theorem addExpr_predicts (h : Predictive below below') :
    (addExpr below).Predicts (addExpr below') Nonterminal.addExpr.Derives := by
  refine .bind (term_predicts h) fun head us hhead => .branchAt (fun op hop => ?_) ?_
  · refine .map (h.predicts .addExpr) fun rest vs hrest => ⟨trivial, ?_⟩
    show Reads (AddExpr.yield (.chain head op.value rest)) _
    rw [AddExpr.yield]
    exact hhead.2.append (.cons ⟨hop, rfl⟩ hrest.2)
  · refine .pure ⟨trivial, ?_⟩
    show Reads (AddExpr.yield (.single head)) _
    rw [AddExpr.yield, List.append_nil]
    exact hhead.2

/-- A comparison is a condition, and no plain value. A plain value could still have become one. -/
theorem comparison_predicts (h : Predictive below below') (keyword : String) :
    (comparison below keyword).Predicts (comparison below' keyword)
      fun c ts => Reads c.yield ts := by
  refine .cursor_bind (fun start => .bind (h.predicts .condition) fun e us he => ?_) ?_ ?_
  · cases e with
    | cond c =>
      refine .pure ?_
      have hc : Reads (Expr.yield (.cond c)) us := he.2
      rwa [Expr.yield, ← List.append_nil us] at hc
    | add sum =>
      -- A comparison with any other sum would have continued the one that was read.
      obtain ⟨one, ts, -, hone⟩ := Nonterminal.exists_derives .addExpr
      have hsum : Reads (AddExpr.yield sum) us := by
        have he : Reads (Expr.yield (.add sum)) us := he.2
        rwa [Expr.yield] at he
      refine .throw rfl ⟨.single sum "<" one, ⟨.relOp, "<", ⟨1, defaultFile⟩⟩ :: ts, ?_⟩
      show Reads (Condition.yield (.single sum "<" one)) _
      rw [Condition.yield]
      exact hsum.append (.cons ⟨rfl, rfl⟩ hone)
    | array entries => exact absurd he.1 id
    | closure params result body => exact absurd he.1 id
  · -- Neither an answer nor whether there is a fault depends on the place that was kept in mind.
    intro start other c a s hrun
    obtain ⟨e, mid, he, hrun⟩ := bind_eq_ok hrun
    refine bind_eq_ok_of he ?_
    cases e with
    | cond c => exact hrun
    | add | array | closure => cases hrun
  · intro start other c d s hrun
    obtain he | ⟨e, mid, he, hrun⟩ := bind_eq_error hrun
    · exact ⟨d, bind_eq_error_of he⟩
    · refine ⟨.placed (.expectedCondition keyword) other.position, bind_eq_ok_of he ?_⟩
      cases e with
      | cond c => cases hrun
      | add | array | closure =>
        cases hrun
        rfl

/-- A sum without a comparison behind it is an expression of its own. -/
theorem condition_predicts (h : Predictive below below') :
    (condition below).Predicts (condition below') Nonterminal.condition.Derives := by
  refine .bind (addExpr_predicts h) fun left us hleft => .branchAt (fun relop hrelop => ?_) ?_
  · refine .bind (h.predicts .addExpr) fun right vs hright => .ifAt ?_ ?_
    · refine .expect_bind fun boolop hboolop => .map (comparison_predicts h boolop.value)
        fun next ws hnext => ⟨trivial, ?_⟩
      show Reads (Expr.yield (.cond (.chain left relop.value right boolop.value next))) _
      rw [Expr.yield, Condition.yield, List.append_assoc]
      exact hleft.2.append (.cons ⟨hrelop, rfl⟩ (hright.2.append (.cons ⟨hboolop, rfl⟩ hnext)))
    · refine .pure ⟨trivial, ?_⟩
      show Reads (Expr.yield (.cond (.single left relop.value right))) _
      rw [Expr.yield, Condition.yield, List.append_nil]
      exact hleft.2.append (.cons ⟨hrelop, rfl⟩ hright.2)
  · refine .pure ⟨trivial, ?_⟩
    show Reads (Expr.yield (.add left)) _
    rw [Expr.yield, List.append_nil]
    exact hleft.2

/-- An array literal is its entries between brackets, or the brackets alone. -/
theorem array_predicts (h : Predictive below below') :
    (array below).Predicts (array below') Nonterminal.array.Derives := by
  refine .after fun op hop => .bind (S := fun es ts => Reads (Exprs.yield es) ts)
    (.upTo .nil ((h.predicts .exprList).mono fun _ _ h => h.2)) fun entries us hentries =>
    .skip_bind fun close hclose => .pure ⟨trivial, ?_⟩
  show Reads (Expr.yield (.array entries)) _
  rw [Expr.yield]
  exact .cons hop (hentries.append (.cons hclose .nil))

/-- A closure is parameters, a result type and statements in braces. -/
theorem closure_predicts (h : Predictive below below') :
    (closure below).Predicts (closure below') Nonterminal.closure.Derives := by
  refine .after fun op hop => .bind (h.predicts .params) fun params us hparams =>
    .skip_bind fun close hclose => .skip_bind fun colon hcolon =>
    .bind (h.predicts .type) fun result vs hresult => .skip_bind fun assign hassign =>
    .skip_bind fun left hleft => .bind (h.predicts .stmts) fun body ws hbody =>
    .skip_bind fun right hright => .pure ⟨trivial, ?_⟩
  show Reads (Expr.yield (.closure params result body)) _
  rw [Expr.yield]
  simp only [List.append_assoc, List.cons_append]
  exact .cons hop (hparams.2.append (.cons hclose (.cons hcolon (hresult.2.append
    (.cons hassign (.cons hleft (hbody.2.append (.cons hright .nil))))))))

/-! ### The start of an expression -/

/-- A condition takes what its first factor takes. -/
theorem condition_takes (h : Predictive below below') {kinds : List TokenKind}
    (hfactor : (factor below).Takes kinds) : (condition below).Takes kinds := by
  have hterm : (term below).Takes kinds :=
    .bind hfactor fun _ => .branchAt (fun _ => (h.takes_nil .term).bind fun _ => .pure) .pure
  have hsum : (addExpr below).Takes kinds :=
    .bind hterm fun _ => .branchAt (fun _ => (h.takes_nil .addExpr).bind fun _ => .pure) .pure
  refine .bind hsum fun _ => .branchAt (fun relop => ?_) .pure
  refine (h.takes_nil .addExpr).bind fun _ => .ifAt ?_ .pure
  exact .bind .expect fun _ => (comparison_predicts h _).steady.takes_nil.bind fun _ => .pure

/-- A factor consumes a name in front of anything. -/
theorem factor_takes_name (h : Predictive below below') :
    (factor below).Takes [.identifier] := by
  refine .branch fun t ht => ⟨named below t, by rw [ht], ?_⟩
  exact (named_predicts h ht).steady.takes_nil

/-- A factor in parentheses consumes what its expression consumes. -/
theorem factor_takes_paren {kinds : List TokenKind} (hexpr : (below .expr).Takes kinds) :
    (factor below).Takes (.openParen :: kinds) := by
  refine .branch fun t ht => ⟨_, by rw [ht], hexpr.bind fun _ => ?_⟩
  exact .bind .skip fun _ => .pure

/-- A closure consumes its parenthesis and what its parameters consume. -/
theorem closure_takes (h : Predictive below below') {kinds : List TokenKind}
    (hparams : (below .params).Takes kinds) : (closure below).Takes (.openParen :: kinds) := by
  refine .after fun op => hparams.bind fun _ => .bind .skip fun _ => .bind .skip fun _ =>
    (h.takes_nil .type).bind fun _ => .bind .skip fun _ => .bind .skip fun _ =>
    (h.takes_nil .stmts).bind fun _ => ?_
  exact .bind .skip fun _ => .pure

/-- The kind at the lookahead is the first of the kinds left. -/
theorem kinds_begin {ts : List Token} {last : Position} {kind : TokenKind}
    (h : Cursor.kind? ⟨ts, last⟩ 0 = some kind) : [kind] <+: ts.map Token.kind := by
  obtain _ | ⟨t, ts⟩ := ts
  · cases h
  · cases h
    exact ⟨ts.map Token.kind, rfl⟩

/-- The kinds at the next two places are the first two of those left. -/
theorem kinds_begin_two {ts : List Token} {last : Position} {kind next : TokenKind}
    (h : Cursor.kind? ⟨ts, last⟩ 0 = some kind) (hnext : Cursor.kind? ⟨ts, last⟩ 1 = some next) :
    [kind, next] <+: ts.map Token.kind := by
  obtain _ | ⟨t, _ | ⟨u, ts⟩⟩ := ts
  · cases h
  · cases hnext
  · cases h
    cases hnext
    exact ⟨ts.map Token.kind, rfl⟩

/-- A closure is told from parentheses by tokens that were consumed and the one behind them. -/
theorem opensClosure_congr (ts : List Token) {rest others : List Token}
    (last last' : Position) (h : rest.head? = others.head?)
    (hparen : [.openParen] <+: (ts ++ others).map Token.kind → 1 ≤ ts.length)
    (hname : [.openParen, .identifier] <+: (ts ++ others).map Token.kind → 2 ≤ ts.length) :
    Cursor.opensClosure ⟨ts ++ rest, last⟩ = Cursor.opensClosure ⟨ts ++ others, last'⟩ := by
  have h₀ := kind?_append_congr h (Nat.zero_le ts.length) last last'
  unfold Cursor.opensClosure Cursor.isAt
  rw [h₀]
  by_cases hopen : Cursor.kind? ⟨ts ++ others, last'⟩ 0 = some .openParen
  · have h₁ := kind?_append_congr h (hparen (kinds_begin hopen)) last last'
    rw [h₁]
    by_cases hid : Cursor.kind? ⟨ts ++ others, last'⟩ 1 = some .identifier
    · have h₂ := kind?_append_congr h (hname (kinds_begin_two hopen hid)) last last'
      rw [h₂]
    · rw [beq_false_of_ne hid, Bool.false_and, Bool.false_and]
  · rw [beq_false_of_ne hopen, Bool.false_and, Bool.false_and]

/-- An expression is told by up to three tokens, of which none is consumed. -/
theorem expr_apply (c : Cursor.Below (n + 1)) :
    expr below c =
      (if c.1.isAt .openBracket then array below
        else if c.1.opensClosure then closure below else condition below) c := rfl

/-- An expression is steady although it looks ahead: what it looks at is consumed afterwards, so the
same tokens stand in front of the other parser. -/
theorem expr_steady (h : Predictive below below') : (expr below).Steady (expr below') := by
  refine .of_choice fun c => ?_
  by_cases harray : c.1.isAt .openBracket = true
  · refine ⟨array below, array below', (array_predicts h).steady, ?_, ?_⟩
    · rw [expr_apply, if_pos harray]
    · intro ts rest hc hrest last hlt
      have hat : Cursor.isAt ⟨ts ++ rest, last⟩ .openBracket = true := by
        rw [Cursor.isAt, kind?_append_congr hrest (Nat.zero_le _) last c.1.last, ← hc]
        exact harray
      rw [expr_apply, if_pos hat]
  · -- Whichever of the other two is chosen, it consumes what it was chosen by.
    obtain ⟨p, q, hp, htakes, hrun, hsame⟩ : ∃ (p : Parser (n + 1) Expr) (q : Parser (m + 1) Expr),
        p.Steady q ∧
        (∀ kinds, (below .params).Takes kinds → (below .expr).Takes kinds →
          p.Takes (.openParen :: kinds)) ∧
        expr below c = p c ∧
        ∀ c', c'.1.isAt .openBracket ≠ true → c'.1.opensClosure = c.1.opensClosure →
          expr below' c' = q c' := by
      by_cases hclosure : c.1.opensClosure = true
      · refine ⟨closure below, closure below', (closure_predicts h).steady,
          fun kinds hparams _ => closure_takes h hparams, ?_, fun c' hc' hopens => ?_⟩
        · rw [expr_apply, if_neg harray, if_pos hclosure]
        · rw [expr_apply, if_neg hc', if_pos (hopens.trans hclosure)]
      · refine ⟨condition below, condition below', (condition_predicts h).steady,
          fun kinds _ hexpr => condition_takes h (factor_takes_paren hexpr), ?_,
          fun c' hc' hopens => ?_⟩
        · rw [expr_apply, if_neg harray, if_neg hclosure]
        · rw [expr_apply, if_neg hc', if_neg (hopens ▸ hclosure)]
    refine ⟨p, q, hp, hrun, fun ts rest hc hrest last hlt => hsame _ ?_ ?_⟩
    · rw [Cursor.isAt, kind?_append_congr hrest (Nat.zero_le _) last c.1.last, ← hc]
      exact harray
    · have hopens := opensClosure_congr ts last c.1.last hrest ?_ ?_
      · rw [hopens, ← hc]
      · intro hkinds
        have hlong := htakes [] (h.takes_nil .params) (h.takes_nil .expr) c (hc ▸ hkinds)
        rw [hc, List.length_append] at hlong
        simp only [List.length_cons, List.length_nil] at hlong
        omega
      · intro hkinds
        have hlong := htakes [.identifier] h.params_takes h.expr_takes c (hc ▸ hkinds)
        rw [hc, List.length_append] at hlong
        simp only [List.length_cons, List.length_nil] at hlong
        omega

/-- The three forms of an expression share its steadiness. Answers and faults are those of the form
that was chosen. -/
theorem expr_predicts (h : Predictive below below') :
    (expr below).Predicts (expr below') Nonterminal.expr.Derives where
  answers := .cursor_bind fun _ => .ite
    ((array_predicts h).answers.mono fun _ _ h => ⟨trivial, h.2⟩)
    (.ite ((closure_predicts h).answers.mono fun _ _ h => ⟨trivial, h.2⟩)
      ((condition_predicts h).answers.mono fun _ _ h => ⟨trivial, h.2⟩))
  stalls := .cursor_bind fun _ => .ite
    ((array_predicts h).stalls.mono fun _ _ h => ⟨trivial, h.2⟩)
    (.ite ((closure_predicts h).stalls.mono fun _ _ h => ⟨trivial, h.2⟩)
      ((condition_predicts h).stalls.mono fun _ _ h => ⟨trivial, h.2⟩))
  steady := expr_steady h
  viable := Nonterminal.viable_nil .expr

/-- A list of expressions goes on behind a comma, and nothing else continues it. -/
theorem exprList_predicts (h : Predictive below below') :
    (exprList below).Predicts (exprList below') Nonterminal.exprList.Derives := by
  refine .bind (expr_predicts h) fun first us hfirst => .branchAt (fun comma hcomma => ?_) ?_
  · refine .map (h.predicts .exprList) fun rest vs hrest => ⟨List.cons_ne_nil _ _, ?_⟩
    show Reads (Exprs.yield (first :: rest)) _
    rw [Exprs.yield_cons hrest.1]
    exact hfirst.2.append (.cons hcomma hrest.2)
  · refine .pure ⟨List.cons_ne_nil _ _, ?_⟩
    show Reads (Exprs.yield [first]) _
    rw [Exprs.yield, List.append_nil]
    exact hfirst.2

/-- Parameters consume the name that they begin with. -/
theorem params_takes (h : Predictive below below') : (params below).Takes [.identifier] := by
  have hparam : (param below).Takes [.identifier] := by
    refine .after fun id => .bind .skip fun _ => (h.takes_nil .type).bind fun _ => .ifAt ?_ .pure
    exact .bind .skip fun _ => (h.takes_nil .expr).bind fun _ => .pure
  refine .upTo (by decide) (hparam.bind fun _ => .branchAt (fun _ => ?_) .pure)
  exact (h.takes_nil .paramList).bind fun _ => .pure

/-- An expression consumes the name that it begins with. -/
theorem expr_takes (h : Predictive below below') : (expr below).Takes [.identifier] := by
  rintro ⟨⟨_ | ⟨t, ts⟩, last⟩, hlt⟩ hkinds
  · exact absurd (List.prefix_nil.1 hkinds) (List.cons_ne_nil _ _)
  · have hkind : t.kind = .identifier := (List.cons_prefix_cons.1 hkinds).1.symm
    have harray : ¬ Cursor.isAt ⟨t :: ts, last⟩ .openBracket = true := by
      rw [isAt_eq, kindAhead_cons, hkind]
      decide
    have hclosure : ¬ Cursor.opensClosure ⟨t :: ts, last⟩ = true := by
      rw [Cursor.opensClosure, isAt_eq, kindAhead_cons, hkind]
      exact Bool.false_ne_true
    have hrun : expr below ⟨⟨t :: ts, last⟩, hlt⟩ = condition below ⟨⟨t :: ts, last⟩, hlt⟩ := by
      rw [expr_apply, if_neg harray, if_neg hclosure]
    rw [stop_congr hrun]
    exact condition_takes h (factor_takes_name h) _ hkinds

/-! ## Statements

What the rest of a statement answers, together with the token that started it. -/

/-- A conditional goes on behind its keyword, with or without a second block. -/
theorem ifRest_predicts (h : Predictive below below') {t : Token} (ht : t.kind = .kwIf) :
    (ifRest below).Predicts (ifRest below') fun s ts => Nonterminal.ifStmt.Derives s (t :: ts) := by
  refine .bind (comparison_predicts h _) fun condition us hcondition =>
    .skip_bind fun kwThen hthen => .bind (h.predicts .stmts) fun body vs hbody => .ifAt ?_ ?_
  · refine .skip_bind fun kwElse helse => .bind (h.predicts .stmts) fun otherwise ws hotherwise =>
      .skip_bind fun fi hfi => .pure ⟨trivial, ?_⟩
    show Reads (Stmt.yield (.ifElse condition body otherwise)) _
    rw [Stmt.yield]
    simp only [List.append_assoc, List.cons_append]
    exact .cons ht (hcondition.append (.cons hthen (hbody.2.append
      (.cons helse (hotherwise.2.append (.cons hfi .nil))))))
  · refine .skip_bind fun fi hfi => .pure ⟨trivial, ?_⟩
    show Reads (Stmt.yield (.ifThen condition body)) _
    rw [Stmt.yield]
    simp only [List.append_assoc, List.cons_append]
    exact .cons ht (hcondition.append (.cons hthen (hbody.2.append (.cons hfi .nil))))

/-- A loop goes on behind its keyword. -/
theorem whileRest_predicts (h : Predictive below below') {t : Token} (ht : t.kind = .kwWhile) :
    (whileRest below).Predicts (whileRest below')
      fun s ts => Nonterminal.whileStmt.Derives s (t :: ts) := by
  refine .bind (comparison_predicts h _) fun condition us hcondition =>
    .skip_bind fun kwDo hdo => .bind (h.predicts .stmts) fun body vs hbody =>
    .skip_bind fun done hdone => .pure ⟨trivial, ?_⟩
  show Reads (Stmt.yield (.loop condition body)) _
  rw [Stmt.yield]
  simp only [List.append_assoc, List.cons_append]
  exact .cons ht (hcondition.append (.cons hdo (hbody.2.append (.cons hdone .nil))))

/-- Behind a name, the next token tells an assignment from a call. -/
theorem idRest_predicts (h : Predictive below below') {t : Token} (ht : t.kind = .identifier) :
    (idRest below t).Predicts (idRest below' t)
      fun s ts => Nonterminal.idStmt.Derives s (t :: ts) := by
  refine .ifAt ?_ ?_
  · refine .skip_bind fun assign hassign => .bind (h.predicts .expr) fun value us hvalue =>
      .skip_bind fun semi hsemi => .pure ⟨trivial, ?_⟩
    show Reads (Stmt.yield (.assign t.value value)) _
    rw [Stmt.yield]
    exact .cons ⟨ht, rfl⟩ (.cons hassign (hvalue.2.append (.cons hsemi .nil)))
  · refine .bind (h.predicts .arguments) fun args us hargs => .skip_bind fun semi hsemi =>
      .pure ⟨trivial, ?_⟩
    have hrow : Stmt.yield (.call t.value args) =
        .word .identifier t.value :: (Nonterminal.arguments.yield args ++ [.mark .semicolon]) := by
      rw [Stmt.yield]
      simp [Nonterminal.yield]
    show Reads (Stmt.yield (.call t.value args)) _
    rw [hrow]
    exact .cons ⟨ht, rfl⟩ (hargs.2.append (.cons hsemi .nil))

/-- A return goes on behind its keyword. -/
theorem returnRest_predicts (h : Predictive below below') {t : Token} (ht : t.kind = .kwReturn) :
    (returnRest below).Predicts (returnRest below')
      fun s ts => Nonterminal.returnStmt.Derives s (t :: ts) := by
  refine .bind (h.predicts .expr) fun value us hvalue => .skip_bind fun semi hsemi =>
    .pure ⟨trivial, ?_⟩
  show Reads (Stmt.yield (.ret value)) _
  rw [Stmt.yield]
  exact .cons ht (hvalue.2.append (.cons hsemi .nil))

/-- The declaration of a variable goes on behind its keyword. -/
theorem letRest_predicts (h : Predictive below below') {t : Token} (ht : t.kind = .kwLet) :
    (letRest below).Predicts (letRest below')
      fun s ts => Nonterminal.letStmt.Derives s (t :: ts) := by
  refine .expect_bind fun id hid => .skip_bind fun colon hcolon =>
    .bind (h.predicts .type) fun type us htype => .skip_bind fun assign hassign =>
    .bind (h.predicts .expr) fun value vs hvalue => .skip_bind fun semi hsemi => .pure ⟨trivial, ?_⟩
  show Reads (Stmt.yield (.letVar id.value type value)) _
  rw [Stmt.yield]
  simp only [List.append_assoc, List.cons_append]
  exact .cons ht (.cons ⟨hid, rfl⟩ (.cons hcolon (htype.2.append
    (.cons hassign (hvalue.2.append (.cons hsemi .nil))))))

/-- The declaration of a function goes on behind its keyword. -/
theorem funRest_predicts (h : Predictive below below') {t : Token} (ht : t.kind = .kwFun) :
    (funRest below).Predicts (funRest below')
      fun s ts => Nonterminal.funStmt.Derives s (t :: ts) := by
  refine .expect_bind fun id hid => .skip_bind fun op hop =>
    .bind (h.predicts .params) fun params us hparams => .skip_bind fun close hclose =>
    .skip_bind fun colon hcolon => .bind (h.predicts .type) fun result vs hresult =>
    .skip_bind fun assign hassign => .skip_bind fun kwBegin hbegin =>
    .bind (h.predicts .stmts) fun body ws hbody => .skip_bind fun kwEnd hend => .pure ⟨trivial, ?_⟩
  show Reads (Stmt.yield (.letFun id.value params result body)) _
  rw [Stmt.yield]
  simp only [List.append_assoc, List.cons_append]
  exact .cons ht (.cons ⟨hid, rfl⟩ (.cons hop (hparams.2.append (.cons hclose (.cons hcolon
    (hresult.2.append (.cons hassign (.cons hbegin (hbody.2.append (.cons hend .nil))))))))))

/-- The first token of a statement settles its form, and so at every bound. -/
theorem stmtRest_predicts (h : Predictive below below') (t : Token) :
    Option.Rel (fun p q => p.Predicts q fun s ts => Reads (Stmt.yield s) (t :: ts))
      (stmtRest below t) (stmtRest below' t) := by
  -- The kind of the first token chooses the production.
  unfold stmtRest
  split
  · next hkind => exact .some ((ifRest_predicts h hkind).mono fun _ _ h => h.2)
  · next hkind => exact .some ((whileRest_predicts h hkind).mono fun _ _ h => h.2)
  · next hkind => exact .some ((returnRest_predicts h hkind).mono fun _ _ h => h.2)
  · next hkind => exact .some ((letRest_predicts h hkind).mono fun _ _ h => h.2)
  · next hkind => exact .some ((funRest_predicts h hkind).mono fun _ _ h => h.2)
  · next hkind => exact .some ((idRest_predicts h hkind).mono fun _ _ h => h.2)
  · exact .none

/-- A token that opens no statement is left where it is. -/
theorem stmt_predicts (h : Predictive below below') :
    (stmt below).Predicts (stmt below') Nonterminal.stmt.Derives := by
  refine .branch (fun t => ?_) (.pure ⟨trivial, .nil⟩)
  exact rel_map (stmtRest_predicts h t) fun p q hp =>
    Predicts.toFollows (hp.map fun s us hs => ⟨trivial, hs⟩)

/-- Statements go on until a token opens none. -/
theorem stmts_predicts (h : Predictive below below') :
    (stmts below).Predicts (stmts below') Nonterminal.stmts.Derives := by
  refine .branch (fun t => ?_) (.pure ⟨trivial, .nil⟩)
  refine rel_map (stmtRest_predicts h t) fun p q hp => Predicts.toFollows (hp.bind fun s us hs =>
    .map (h.predicts .stmts) fun rest vs hrest => ⟨trivial, ?_⟩)
  show Reads (Stmts.yield (s :: rest)) _
  rw [Stmts.yield]
  exact hs.append hrest.2

end Production

namespace Nonterminal

open Production

/-- If the parsers below two bounds are predictive, so are those at the bounds. -/
theorem production_predicts {n m : Nat} {below : ∀ p : Nonterminal, Parser n p.Tree}
    {below' : ∀ p : Nonterminal, Parser m p.Tree} (h : Predictive below below') :
    ∀ p : Nonterminal, (production below p).Predicts (production below' p) p.Derives
  | type => type_predicts h
  | typeBase => typeBase_predicts h
  | params => params_predicts h
  | paramList => paramList_predicts h
  | param => param_predicts h
  | expr => expr_predicts h
  | condition => condition_predicts h
  | array => array_predicts h
  | exprList => exprList_predicts h
  | closure => closure_predicts h
  | addExpr => addExpr_predicts h
  | term => term_predicts h
  | factor => factor_predicts h
  | idFactor => idFactor_predicts h
  | indices => indices_predicts h
  | arguments => arguments_predicts h
  | argList => argList_predicts h
  | arg => arg_predicts h
  | stmts => stmts_predicts h
  | stmt => stmt_predicts h
  | ifStmt => .after fun _ ht => ifRest_predicts h ht
  | whileStmt => .after fun _ ht => whileRest_predicts h ht
  | idStmt => .after fun _ ht => idRest_predicts h ht
  | returnStmt => .after fun _ ht => returnRest_predicts h ht
  | letStmt => .after fun _ ht => letRest_predicts h ht
  | funStmt => .after fun _ ht => funRest_predicts h ht

/-- Productions are predictive if the parsers below them are, names at their beginning included. -/
theorem production_predictive {n m : Nat} {below : ∀ p : Nonterminal, Parser n p.Tree}
    {below' : ∀ p : Nonterminal, Parser m p.Tree} (h : Predictive below below') :
    Predictive (production below) (production below') where
  predicts := production_predicts h
  params_takes := params_takes h
  expr_takes := expr_takes h

/-- **Prediction**: at every bound, what a parser consumes is the tokens of its answer, or can be
continued to some. A larger bound makes no difference. -/
theorem parser_predictive : ∀ {n m : Nat}, n ≤ m → Predictive (parser n) (parser m)
  | 0, _, _ =>
    { predicts := fun p =>
        { answers := fun c => absurd c.2 (Nat.not_lt_zero _)
          stalls := fun c => absurd c.2 (Nat.not_lt_zero _)
          steady := ⟨fun {c} => absurd c.2 (Nat.not_lt_zero _),
            fun {c} => absurd c.2 (Nat.not_lt_zero _)⟩
          viable := viable_nil p }
      params_takes := fun c => absurd c.2 (Nat.not_lt_zero _)
      expr_takes := fun c => absurd c.2 (Nat.not_lt_zero _) }
  | _ + 1, _ + 1, h => production_predictive (parser_predictive (Nat.le_of_succ_le_succ h))

/-- A phrase parsed from a cursor on is made of the tokens up to the cursor where parsing
stopped. -/
theorem derives_of_parse {p : Nonterminal} {c stop : Cursor} {tree : p.Tree}
    (h : p.parse c = (.ok tree, stop)) :
    ∃ ts, c = ⟨ts ++ stop.rest, stop.last⟩ ∧ p.Derives tree ts :=
  Answers.run (fun n => ((parser_predictive (Nat.le_refl n)).predicts p).answers) h

end Nonterminal

end FrontEnd
