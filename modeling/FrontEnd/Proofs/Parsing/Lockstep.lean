import FrontEnd.Parser.Grammar
import FrontEnd.Proofs.Parsing.Success
import Mathlib.Data.List.Forall2

/-!
# Parsers in lockstep

What a parser does is settled by the kinds and texts of the tokens in front of it. It copies places
into its diagnostics and blames tokens, but it never decides by a place, nor by the bound at which
it runs. So two runs over tokens with the same lexemes go through the same steps.

- `Correspondence`: which tokens, places and diagnostics of two runs belong together. Its laws name
  all diagnostics that a parser raises.
- `Correspondence.Lockstep C p q`: at corresponding cursors `p` and `q` end alike, with the same
  answer or with corresponding diagnostics, and at corresponding cursors again. The two are the same
  parser, perhaps at two bounds, up to the tokens and cursors that it keeps in mind.
- `Nonterminal.parser_lockstep`: the parsers of every phrase are in lockstep at any two bounds.

Nothing more has to be shown of the productions to compare two runs or to say what a single run
blames; it is a matter of the correspondence.
-/

namespace FrontEnd

/-- A numeral that stands for no number of its kind. -/
def Token.IsUnreadable (t : Token) : Prop :=
  t.kind = .number ∧ readInt64? t.value = none ∨ t.kind = .float ∧ readBinary64? t.value = none

/-- Which tokens, places and diagnostics of two runs of a parser belong together. -/
structure Correspondence where
  tokens : Token → Token → Prop
  places : Position → Position → Prop
  diagnostics : Diagnostic → Diagnostic → Prop
  lexeme_eq : ∀ {t u : Token}, tokens t u → t.lexeme = u.lexeme
  position : ∀ {t u : Token}, tokens t u → places t.position u.position
  unexpectedToken : ∀ {t u : Token}, tokens t u → ∀ expected, diagnostics
    (.placed (.unexpectedToken t.value expected) t.position)
    (.placed (.unexpectedToken u.value expected) u.position)
  unexpectedEnd : ∀ {p q : Position}, places p q → ∀ expected, diagnostics
    (.placed (.unexpectedEnd expected) p) (.placed (.unexpectedEnd expected) q)
  expectedCondition : ∀ {p q : Position}, places p q → ∀ keyword, diagnostics
    (.placed (.expectedCondition keyword) p) (.placed (.expectedCondition keyword) q)
  invalidNumber : ∀ {t u : Token}, tokens t u → t.IsUnreadable → diagnostics
    (.placed (.invalidNumber t.value) t.position) (.placed (.invalidNumber u.value) u.position)

namespace Correspondence

variable (C : Correspondence)

/-- Corresponding tokens are of one kind. -/
theorem kind_eq {t u : Token} (h : C.tokens t u) : u.kind = t.kind :=
  congrArg Prod.fst (C.lexeme_eq h).symm

/-- Corresponding tokens have one text. -/
theorem value_eq {t u : Token} (h : C.tokens t u) : u.value = t.value :=
  congrArg Prod.snd (C.lexeme_eq h).symm

/-! ## Corresponding cursors -/

/-- The tokens left correspond one by one, and so do the ends of the input. -/
structure Cursors (c d : Cursor) : Prop where
  rest : List.Forall₂ C.tokens c.rest d.rest
  last : C.places c.last d.last

namespace Cursors

variable {C} {c d : Cursor}

/-- Corresponding cursors have the same kinds of tokens in front of them. -/
theorem kinds (h : C.Cursors c d) : d.rest.map Token.kind = c.rest.map Token.kind := by
  obtain ⟨rest, last⟩ := c
  obtain ⟨others, last'⟩ := d
  have hrest := h.rest
  dsimp only at hrest ⊢
  clear h
  induction hrest with
  | nil => rfl
  | cons ht _ ih => rw [List.map_cons, List.map_cons, C.kind_eq ht, ih]

theorem kind? (h : C.Cursors c d) (i : Nat) : d.kind? i = c.kind? i := by
  rw [Cursor.kind?, Cursor.kind?, ← List.getElem?_map, ← List.getElem?_map, h.kinds]

/-- A test of the lookahead has the same outcome in both runs. -/
theorem isAt (h : C.Cursors c d) (kind : TokenKind) : d.isAt kind = c.isAt kind := by
  rw [Cursor.isAt, Cursor.isAt, h.kind?]

/-- The look past a parenthesis has the same outcome in both runs. -/
theorem opensClosure (h : C.Cursors c d) : d.opensClosure = c.opensClosure := by
  simp only [Cursor.opensClosure, h.isAt, h.kind?]

/-- The places that two runs would blame correspond. -/
theorem position (h : C.Cursors c d) : C.places c.position d.position := by
  obtain ⟨rest, last⟩ := c
  obtain ⟨others, last'⟩ := d
  cases h.rest with
  | nil => exact h.last
  | cons ht _ => exact C.position ht

/-- The diagnostics that blame the lookahead correspond. -/
theorem unexpected (h : C.Cursors c d) (expected : String) :
    C.diagnostics (c.unexpected expected) (d.unexpected expected) := by
  obtain ⟨rest, last⟩ := c
  obtain ⟨others, last'⟩ := d
  cases h.rest with
  | nil => exact C.unexpectedEnd h.last expected
  | cons ht _ => exact C.unexpectedToken ht expected

end Cursors

/-! ## Runs that end alike -/

open FrontEnd.Parser

variable {n m : Nat} {α β : Type}

/-- Two runs that end alike, at corresponding cursors. -/
inductive EndAlike : EStateM.Result Diagnostic (Cursor.Below n) α →
    EStateM.Result Diagnostic (Cursor.Below m) α → Prop where
  | ok {a : α} {s : Cursor.Below n} {s' : Cursor.Below m} (hs : C.Cursors s.1 s'.1) :
    EndAlike (.ok a s) (.ok a s')
  | error {d d' : Diagnostic} {s : Cursor.Below n} {s' : Cursor.Below m}
    (hd : C.diagnostics d d') (hs : C.Cursors s.1 s'.1) : EndAlike (.error d s) (.error d' s')

variable {C}

/-- A run that ends like an answer has the same answer. -/
theorem EndAlike.of_ok {a : α} {s : Cursor.Below n}
    {r : EStateM.Result Diagnostic (Cursor.Below m) α} (h : C.EndAlike (.ok a s) r) :
    ∃ s' : Cursor.Below m, r = .ok a s' ∧ C.Cursors s.1 s'.1 := by
  cases h with
  | ok hs => exact ⟨_, rfl, hs⟩

/-- A run that ends like a fault has a corresponding one. -/
theorem EndAlike.of_error {d : Diagnostic} {s : Cursor.Below n}
    {r : EStateM.Result Diagnostic (Cursor.Below m) α} (h : C.EndAlike (.error d s) r) :
    ∃ (d' : Diagnostic) (s' : Cursor.Below m),
      r = .error d' s' ∧ C.diagnostics d d' ∧ C.Cursors s.1 s'.1 := by
  cases h with
  | error hd hs => exact ⟨_, _, rfl, hd, hs⟩

/-- Raising the bounds of both runs changes nothing. -/
theorem EndAlike.raise {r : EStateM.Result Diagnostic (Cursor.Below n) α}
    {r' : EStateM.Result Diagnostic (Cursor.Below m) α} (h : C.EndAlike r r') :
    C.EndAlike (raise r) (raise r') := by
  cases h with
  | ok hs => exact .ok hs
  | error hd hs => exact .error hd hs

variable (C) in
/-- At corresponding cursors the two parsers end alike. -/
def Lockstep (p : Parser n α) (q : Parser m α) : Prop :=
  ∀ (c : Cursor.Below n) (d : Cursor.Below m), C.Cursors c.1 d.1 → C.EndAlike (p c) (q d)

namespace Lockstep

theorem pure {a : α} : C.Lockstep (pure a : Parser n α) (Pure.pure a : Parser m α) :=
  fun _ _ hc => .ok hc

/-- Corresponding diagnostics may be raised in either run. -/
theorem throw {d d' : Diagnostic} (hd : C.diagnostics d d') :
    C.Lockstep (throw d : Parser n α) (MonadExcept.throw d' : Parser m α) :=
  fun _ _ hc => .error hd hc

/-- Both runs may blame the token at the lookahead. -/
theorem unexpected {expected : String} :
    C.Lockstep (unexpected expected : Parser n α) (Parser.unexpected expected : Parser m α) :=
  fun _ _ hc => .error (hc.unexpected expected) hc

/-- Sequences are in lockstep if their parts are, answer by answer. -/
theorem bind {p : Parser n α} {q : Parser m α} {f : α → Parser n β} {g : α → Parser m β}
    (hp : C.Lockstep p q) (hf : ∀ a, C.Lockstep (f a) (g a)) :
    C.Lockstep (p >>= f) (q >>= g) := by
  intro c d hc
  have hrun := hp c d hc
  cases hpc : p c with
  | ok a s =>
    rw [hpc] at hrun
    obtain ⟨s', hqd, hs⟩ := hrun.of_ok
    rw [bind_eq_ok_of hpc rfl, bind_eq_ok_of hqd rfl]
    exact hf a s s' hs
  | error e s =>
    rw [hpc] at hrun
    obtain ⟨e', s', hqd, hd, hs⟩ := hrun.of_error
    rw [bind_eq_error_of hpc, bind_eq_error_of hqd]
    exact .error hd hs

/-- A token that is kept in mind is the corresponding one in the other run. -/
theorem expect_bind {kind : TokenKind} {f : Token → Parser n β} {g : Token → Parser m β}
    (hf : ∀ t u, C.tokens t u → C.Lockstep (f t) (g u)) :
    C.Lockstep (expect kind >>= f) (Parser.expect kind >>= g) := by
  rintro ⟨⟨rest, last⟩, hlt⟩ ⟨⟨others, last'⟩, hlt'⟩ hc
  cases hc.rest with
  | nil => exact .error (hc.unexpected kind.category) hc
  | @cons t u ts us ht hts =>
    by_cases hkind : t.kind = kind
    · have hrun : (expect kind : Parser n Token) ⟨⟨t :: ts, last⟩, hlt⟩ =
          .ok t ⟨⟨ts, last⟩, Nat.lt_of_succ_lt hlt⟩ := if_pos hkind
      have hrun' : (expect kind : Parser m Token) ⟨⟨u :: us, last'⟩, hlt'⟩ =
          .ok u ⟨⟨us, last'⟩, Nat.lt_of_succ_lt hlt'⟩ := if_pos ((C.kind_eq ht).trans hkind)
      rw [bind_eq_ok_of hrun rfl, bind_eq_ok_of hrun' rfl]
      exact hf t u ht _ _ ⟨hts, hc.last⟩
    · have hrun : (expect kind : Parser n Token) ⟨⟨t :: ts, last⟩, hlt⟩ =
          Parser.unexpected kind.category ⟨⟨t :: ts, last⟩, hlt⟩ := if_neg hkind
      have hrun' : (expect kind : Parser m Token) ⟨⟨u :: us, last'⟩, hlt'⟩ =
          Parser.unexpected kind.category ⟨⟨u :: us, last'⟩, hlt'⟩ :=
        if_neg fun hu => hkind ((C.kind_eq ht).symm.trans hu)
      rw [bind_eq_error_of hrun, bind_eq_error_of hrun']
      exact .error (hc.unexpected kind.category) hc

/-- A token that is skipped is not kept in mind. -/
theorem skip_bind {kind : TokenKind} {f : Unit → Parser n β} {g : Unit → Parser m β}
    (hf : C.Lockstep (f ()) (g ())) :
    C.Lockstep (skip kind >>= f) (Parser.skip kind >>= g) := by
  have hskip : C.Lockstep (skip kind : Parser n Unit) (Parser.skip kind : Parser m Unit) :=
    .expect_bind fun _ _ _ => .pure
  exact hskip.bind fun _ => hf

/-- Making something of an answer keeps two parsers in lockstep. -/
theorem map {p : Parser n α} {q : Parser m α} {f : α → β} (hp : C.Lockstep p q) :
    C.Lockstep (do return f (← p) : Parser n β) (do return f (← q) : Parser m β) :=
  hp.bind fun _ => .pure

/-- A place that is kept in mind corresponds to the one in the other run. -/
theorem cursor_bind {f : Cursor → Parser n α} {g : Cursor → Parser m α}
    (hf : ∀ c d, C.Cursors c d → C.Lockstep (f c) (g d)) :
    C.Lockstep (cursor >>= f) (Parser.cursor >>= g) :=
  fun c d hc => hf c.1 d.1 hc c d hc

/-- Conditions that hold in both runs or in neither lead the same way. -/
theorem ite {P Q : Prop} [Decidable P] [Decidable Q] {p₁ p₂ : Parser n α} {q₁ q₂ : Parser m α}
    (hPQ : P ↔ Q) (h₁ : C.Lockstep p₁ q₁) (h₂ : C.Lockstep p₂ q₂) :
    C.Lockstep (if P then p₁ else p₂) (if Q then q₁ else q₂) := by
  by_cases hP : P
  · rw [if_pos hP, if_pos (hPQ.1 hP)]
    exact h₁
  · rw [if_neg hP, if_neg (hPQ.not.1 hP)]
    exact h₂

/-- A choice by the lookahead leads the same way in both runs. -/
theorem ifAt {kind : TokenKind} {p₁ p₂ : Parser n α} {q₁ q₂ : Parser m α}
    (h₁ : C.Lockstep p₁ q₁) (h₂ : C.Lockstep p₂ q₂) :
    C.Lockstep (do if ← isAt kind then p₁ else p₂) (do if ← isAt kind then q₁ else q₂) := by
  intro c d hc
  have hat : c.1.isAt kind = true ↔ d.1.isAt kind = true := by rw [hc.isAt]
  exact Lockstep.ite hat h₁ h₂ c d hc

/-- A branch is opened by corresponding tokens, or by none. -/
theorem branch {choose : Token → Option (Parser n α)} {choose' : Token → Option (Parser m α)}
    {otherwise : Parser (n + 1) α} {otherwise' : Parser (m + 1) α}
    (hp : ∀ t u, C.tokens t u → Option.Rel C.Lockstep (choose t) (choose' u))
    (hq : C.Lockstep otherwise otherwise') :
    C.Lockstep (branch choose otherwise) (Parser.branch choose' otherwise') := by
  rintro ⟨⟨rest, last⟩, hlt⟩ ⟨⟨others, last'⟩, hlt'⟩ hc
  cases hc.rest with
  | nil => exact hq _ _ hc
  | @cons t u ts us ht hts =>
    have hchosen := hp t u ht
    generalize hchoose : choose t = p?, hchoose' : choose' u = q? at hchosen
    cases hchosen with
    | none =>
      rw [branch_cons_none hchoose, branch_cons_none hchoose']
      exact hq _ _ hc
    | some hpq =>
      rw [branch_cons_some hchoose, branch_cons_some hchoose']
      exact (hpq _ _ ⟨hts, hc.last⟩).raise

/-- A branch by one kind is opened in both runs or in neither. -/
theorem branchAt {kind : TokenKind} {next : Token → Parser n α} {next' : Token → Parser m α}
    {otherwise : Parser (n + 1) α} {otherwise' : Parser (m + 1) α}
    (hp : ∀ t u, C.tokens t u → C.Lockstep (next t) (next' u))
    (hq : C.Lockstep otherwise otherwise') :
    C.Lockstep (branchAt kind next otherwise) (Parser.branchAt kind next' otherwise') := by
  refine .branch (fun t u ht => ?_) hq
  rw [C.kind_eq ht]
  split
  · exact .some (hp t u ht)
  · exact .none

/-- Behind corresponding tokens, productions are in lockstep. -/
theorem after {kind : TokenKind} {next : Token → Parser n α} {next' : Token → Parser m α}
    (hp : ∀ t u, C.tokens t u → C.Lockstep (next t) (next' u)) :
    C.Lockstep (after kind next) (Parser.after kind next') :=
  .branchAt hp .unexpected

/-- A list is missing in both runs or in neither. -/
theorem upTo {close : TokenKind} {list : Parser n (List α)} {list' : Parser m (List α)}
    (h : C.Lockstep list list') : C.Lockstep (upTo close list) (Parser.upTo close list') :=
  .ifAt .pure h

end Lockstep

end Correspondence

open FrontEnd.Parser

/-! ## Productions -/

namespace Production

variable {C : Correspondence} {n m : Nat} {below : ∀ p : Nonterminal, Parser n p.Tree}
  {below' : ∀ p : Nonterminal, Parser m p.Tree}

/-- What a type is made of is settled by kinds and texts alone. -/
theorem typeBase_lockstep (h : ∀ p, C.Lockstep (below p) (below' p)) :
    C.Lockstep (typeBase below) (typeBase below') := by
  refine .branch (fun t u ht => ?_) .unexpected
  rw [C.kind_eq ht, C.value_eq ht]
  split
  · exact .some .pure
  · refine .some (.bind (h .params) fun _ => .skip_bind (.skip_bind ?_))
    exact (h .type).map
  · exact .none

theorem type_lockstep (h : ∀ p, C.Lockstep (below p) (below' p)) :
    C.Lockstep (type below) (type below') :=
  .branchAt (fun _ _ _ => .bind (h .type) fun _ => .skip_bind .pure) (typeBase_lockstep h)

/-- A parameter takes over the text of its name, not its place. -/
theorem param_lockstep (h : ∀ p, C.Lockstep (below p) (below' p)) :
    C.Lockstep (param below) (param below') := by
  refine .after fun id id' hid => .skip_bind (.bind (h .type) fun type => ?_)
  rw [C.value_eq hid]
  exact .ifAt (.skip_bind (h .expr).map) .pure

theorem paramList_lockstep (h : ∀ p, C.Lockstep (below p) (below' p)) :
    C.Lockstep (paramList below) (paramList below') :=
  .bind (param_lockstep h) fun _ => .branchAt (fun _ _ _ => (h .paramList).map) .pure

theorem params_lockstep (h : ∀ p, C.Lockstep (below p) (below' p)) :
    C.Lockstep (params below) (params below') :=
  .upTo (paramList_lockstep h)

theorem arg_lockstep (h : ∀ p, C.Lockstep (below p) (below' p)) :
    C.Lockstep (arg below) (arg below') := by
  refine .after fun id id' hid => .skip_bind ?_
  rw [C.value_eq hid]
  exact (h .expr).map

theorem argList_lockstep (h : ∀ p, C.Lockstep (below p) (below' p)) :
    C.Lockstep (argList below) (argList below') :=
  .bind (arg_lockstep h) fun _ => .branchAt (fun _ _ _ => (h .argList).map) .pure

theorem arguments_lockstep (h : ∀ p, C.Lockstep (below p) (below' p)) :
    C.Lockstep (arguments below) (arguments below') :=
  .after fun _ _ _ => .bind (.upTo (h .argList)) fun _ => .skip_bind .pure

theorem indices_lockstep (h : ∀ p, C.Lockstep (below p) (below' p)) :
    C.Lockstep (indices below) (indices below') :=
  .branchAt (fun _ _ _ => .bind (h .expr) fun _ => .skip_bind (h .indices).map) .pure

/-- Behind a name, the kind of the next token tells a call from a variable. -/
theorem named_lockstep (h : ∀ p, C.Lockstep (below p) (below' p)) {t u : Token}
    (ht : C.tokens t u) : C.Lockstep (named below t) (named below' u) := by
  unfold named
  rw [C.value_eq ht]
  exact .ifAt (h .arguments).map (h .indices).map

theorem idFactor_lockstep (h : ∀ p, C.Lockstep (below p) (below' p)) :
    C.Lockstep (idFactor below) (idFactor below') :=
  .after fun _ _ ht => named_lockstep h ht

/-- A literal is blamed only if its token cannot be read. -/
theorem literal_lockstep {t u : Token} (ht : C.tokens t u) {value : Option Factor}
    (hvalue : value = none → t.IsUnreadable) :
    C.Lockstep (literal t value : Parser n Factor) (literal u value : Parser m Factor) := by
  cases value with
  | some factor => exact .pure
  | none => exact .throw (C.invalidNumber ht (hvalue rfl))

/-- A numeral is read from its text, so both runs read the same number or blame corresponding
tokens. -/
theorem factor_lockstep (h : ∀ p, C.Lockstep (below p) (below' p)) :
    C.Lockstep (factor below) (factor below') := by
  refine .branch (fun t u ht => ?_) .unexpected
  rw [C.kind_eq ht, C.value_eq ht]
  split
  · exact .some (named_lockstep h ht)
  · next hkind =>
    exact .some (literal_lockstep ht fun hnone => .inl ⟨hkind, Option.map_eq_none_iff.1 hnone⟩)
  · next hkind =>
    exact .some (literal_lockstep ht fun hnone => .inr ⟨hkind, Option.map_eq_none_iff.1 hnone⟩)
  · exact .some (.bind (h .expr) fun _ => .skip_bind .pure)
  · exact .none

theorem term_lockstep (h : ∀ p, C.Lockstep (below p) (below' p)) :
    C.Lockstep (term below) (term below') := by
  refine .bind (factor_lockstep h) fun _ => .branchAt (fun op op' hop => ?_) .pure
  rw [C.value_eq hop]
  exact (h .term).map

theorem addExpr_lockstep (h : ∀ p, C.Lockstep (below p) (below' p)) :
    C.Lockstep (addExpr below) (addExpr below') := by
  refine .bind (term_lockstep h) fun _ => .branchAt (fun op op' hop => ?_) .pure
  rw [C.value_eq hop]
  exact (h .addExpr).map

/-- A plain value in place of a comparison is blamed where it starts. -/
theorem comparison_lockstep (h : ∀ p, C.Lockstep (below p) (below' p)) (keyword : String) :
    C.Lockstep (comparison below keyword) (comparison below' keyword) := by
  refine .cursor_bind fun start start' hstart => .bind (h .condition) fun e => ?_
  cases e with
  | cond condition => exact .pure
  | _ => exact .throw (C.expectedCondition hstart.position keyword)

/-- A condition keeps the place where it started. Both runs keep corresponding ones. -/
theorem condition_lockstep (h : ∀ p, C.Lockstep (below p) (below' p)) :
    C.Lockstep (condition below) (condition below') := by
  refine .bind (addExpr_lockstep h) fun left => .branchAt (fun relop relop' hrelop => ?_) .pure
  rw [C.value_eq hrelop]
  refine .bind (h .addExpr) fun right => .ifAt (.expect_bind fun boolop boolop' hboolop => ?_) .pure
  rw [C.value_eq hboolop]
  exact (comparison_lockstep h boolop.value).map

theorem array_lockstep (h : ∀ p, C.Lockstep (below p) (below' p)) :
    C.Lockstep (array below) (array below') :=
  .after fun _ _ _ => .bind (.upTo (h .exprList)) fun _ => .skip_bind .pure

/-- A closure consists of phrases and skipped tokens. -/
theorem closure_lockstep (h : ∀ p, C.Lockstep (below p) (below' p)) :
    C.Lockstep (closure below) (closure below') := by
  refine .after fun _ _ _ => .bind (h .params) fun _ => .skip_bind (.skip_bind ?_)
  refine .bind (h .type) fun _ => .skip_bind (.skip_bind ?_)
  exact .bind (h .stmts) fun _ => .skip_bind .pure

/-- The three forms of an expression are told by kinds, up to three tokens ahead. -/
theorem expr_lockstep (h : ∀ p, C.Lockstep (below p) (below' p)) :
    C.Lockstep (expr below) (expr below') := by
  refine .cursor_bind fun start start' hstart => .ite ?_ (array_lockstep h) ?_
  · rw [hstart.isAt]
  · refine .ite ?_ (closure_lockstep h) (condition_lockstep h)
    rw [hstart.opensClosure]

theorem exprList_lockstep (h : ∀ p, C.Lockstep (below p) (below' p)) :
    C.Lockstep (exprList below) (exprList below') :=
  .bind (expr_lockstep h) fun _ => .branchAt (fun _ _ _ => (h .exprList).map) .pure

theorem ifRest_lockstep (h : ∀ p, C.Lockstep (below p) (below' p)) :
    C.Lockstep (ifRest below) (ifRest below') := by
  refine .bind (comparison_lockstep h _) fun _ => .skip_bind (.bind (h .stmts) fun _ => ?_)
  exact .ifAt (.skip_bind (.bind (h .stmts) fun _ => .skip_bind .pure)) (.skip_bind .pure)

theorem whileRest_lockstep (h : ∀ p, C.Lockstep (below p) (below' p)) :
    C.Lockstep (whileRest below) (whileRest below') := by
  refine .bind (comparison_lockstep h _) fun _ => .skip_bind (.bind (h .stmts) fun _ => ?_)
  exact .skip_bind .pure

/-- An assignment or a call takes over the text of its name. -/
theorem idRest_lockstep (h : ∀ p, C.Lockstep (below p) (below' p)) {t u : Token}
    (ht : C.tokens t u) : C.Lockstep (idRest below t) (idRest below' u) := by
  unfold idRest
  rw [C.value_eq ht]
  exact .ifAt (.skip_bind (.bind (h .expr) fun _ => .skip_bind .pure))
    (.bind (h .arguments) fun _ => .skip_bind .pure)

theorem returnRest_lockstep (h : ∀ p, C.Lockstep (below p) (below' p)) :
    C.Lockstep (returnRest below) (returnRest below') :=
  .bind (h .expr) fun _ => .skip_bind .pure

/-- The declaration of a variable takes over the text of its name. -/
theorem letRest_lockstep (h : ∀ p, C.Lockstep (below p) (below' p)) :
    C.Lockstep (letRest below) (letRest below') := by
  refine .expect_bind fun id id' hid => ?_
  rw [C.value_eq hid]
  refine .skip_bind (.bind (h .type) fun _ => .skip_bind ?_)
  exact .bind (h .expr) fun _ => .skip_bind .pure

/-- The declaration of a function takes over the text of its name. -/
theorem funRest_lockstep (h : ∀ p, C.Lockstep (below p) (below' p)) :
    C.Lockstep (funRest below) (funRest below') := by
  refine .expect_bind fun id id' hid => ?_
  rw [C.value_eq hid]
  refine .skip_bind (.bind (h .params) fun _ => .skip_bind (.skip_bind ?_))
  refine .bind (h .type) fun _ => .skip_bind (.skip_bind ?_)
  exact .bind (h .stmts) fun _ => .skip_bind .pure

/-- The kind of its first token opens a statement, in both runs or in neither. -/
theorem stmtRest_lockstep (h : ∀ p, C.Lockstep (below p) (below' p)) {t u : Token}
    (ht : C.tokens t u) : Option.Rel C.Lockstep (stmtRest below t) (stmtRest below' u) := by
  unfold stmtRest
  rw [C.kind_eq ht]
  split
  · exact .some (ifRest_lockstep h)
  · exact .some (whileRest_lockstep h)
  · exact .some (returnRest_lockstep h)
  · exact .some (letRest_lockstep h)
  · exact .some (funRest_lockstep h)
  · exact .some (idRest_lockstep h ht)
  · exact .none

/-- Two choices stay in lockstep when they are continued in the same way. -/
theorem rel_continued {α β : Type} {p? : Option (Parser n α)} {q? : Option (Parser m α)}
    {f : Parser n α → Parser n β} {g : Parser m α → Parser m β}
    (h : Option.Rel C.Lockstep p? q?)
    (hfg : ∀ p q, C.Lockstep p q → C.Lockstep (f p) (g q)) :
    Option.Rel C.Lockstep (p?.map f) (q?.map g) := by
  cases h with
  | some hpq => exact .some (hfg _ _ hpq)
  | none => exact .none

theorem stmt_lockstep (h : ∀ p, C.Lockstep (below p) (below' p)) :
    C.Lockstep (stmt below) (stmt below') :=
  .branch (fun _ _ ht => rel_continued (stmtRest_lockstep h ht) fun _ _ hrest => hrest.map) .pure

/-- Statements go on in both runs or end in both. -/
theorem stmts_lockstep (h : ∀ p, C.Lockstep (below p) (below' p)) :
    C.Lockstep (stmts below) (stmts below') := by
  refine .branch (fun _ _ ht => rel_continued (stmtRest_lockstep h ht) fun _ _ hrest => ?_) .pure
  exact hrest.bind fun _ => (h .stmts).map

end Production

namespace Nonterminal

open Production

variable {C : Correspondence}

/-- Productions are in lockstep if the parsers below their bounds are. -/
theorem production_lockstep {n m : Nat} {below : ∀ p : Nonterminal, Parser n p.Tree}
    {below' : ∀ p : Nonterminal, Parser m p.Tree} (h : ∀ p, C.Lockstep (below p) (below' p)) :
    ∀ p : Nonterminal, C.Lockstep (production below p) (production below' p)
  | type => type_lockstep h
  | typeBase => typeBase_lockstep h
  | params => params_lockstep h
  | paramList => paramList_lockstep h
  | param => param_lockstep h
  | expr => expr_lockstep h
  | condition => condition_lockstep h
  | array => array_lockstep h
  | exprList => exprList_lockstep h
  | closure => closure_lockstep h
  | addExpr => addExpr_lockstep h
  | term => term_lockstep h
  | factor => factor_lockstep h
  | idFactor => idFactor_lockstep h
  | indices => indices_lockstep h
  | arguments => arguments_lockstep h
  | argList => argList_lockstep h
  | arg => arg_lockstep h
  | stmts => stmts_lockstep h
  | stmt => stmt_lockstep h
  | ifStmt => .after fun _ _ _ => ifRest_lockstep h
  | whileStmt => .after fun _ _ _ => whileRest_lockstep h
  | idStmt => .after fun _ _ ht => idRest_lockstep h ht
  | returnStmt => .after fun _ _ _ => returnRest_lockstep h
  | letStmt => .after fun _ _ _ => letRest_lockstep h
  | funStmt => .after fun _ _ _ => funRest_lockstep h

/-- **Lockstep**: at corresponding cursors a phrase is parsed alike, whatever the bounds. -/
theorem parser_lockstep : ∀ (n m : Nat) (p : Nonterminal), C.Lockstep (parser n p) (parser m p)
  | 0, _, _ => fun c _ => absurd c.2 (Nat.not_lt_zero _)
  | _ + 1, 0, _ => fun _ d => absurd d.2 (Nat.not_lt_zero _)
  | n + 1, m + 1, p => production_lockstep (parser_lockstep n m) p

end Nonterminal

end FrontEnd
