import FrontEnd.Proofs.Grammar.Phrases
import FrontEnd.Proofs.Parsing.Success

/-!
# Where phrases end and how they begin

A parser goes on as long as the lookahead fits, so it finds the end of a phrase only if the token
behind it would not extend the phrase. `Nonterminal.EndsBefore` says so.

How phrases begin matters where a list may be empty, and for a parenthesis, which opens a closure or
an expression: no expression begins with a closing parenthesis, nor with a name before a colon
(`Factor.not_opensClosure`).
-/

namespace FrontEnd

open FrontEnd.Parser

/-! ## The end of a phrase -/

namespace Nonterminal

/-- The kinds of tokens before which a phrase does not end. -/
def extending : Nonterminal → List TokenKind
  | paramList => [.comma, .assign, .relOp, .boolOp, .addOp, .mulOp, .openBracket, .openParen]
  | param => [.assign, .relOp, .boolOp, .addOp, .mulOp, .openBracket, .openParen]
  | exprList | argList => [.comma, .relOp, .boolOp, .addOp, .mulOp, .openBracket, .openParen]
  | expr | condition | arg => [.relOp, .boolOp, .addOp, .mulOp, .openBracket, .openParen]
  | addExpr => [.addOp, .mulOp, .openBracket, .openParen]
  | term => [.mulOp, .openBracket, .openParen]
  | factor | idFactor => [.openBracket, .openParen]
  | indices => [.openBracket]
  | stmts | stmt => [.kwIf, .kwWhile, .kwReturn, .kwLet, .kwFun, .identifier]
  | _ => []

/-- Whether a phrase ends before a token of the given kind, or at the end of the input. Parameters
are read up to a closing parenthesis. -/
def stopsAt (p : Nonterminal) : Option TokenKind → Bool
  | none => p != params
  | some k => if p = params then k == .closeParen else !p.extending.contains k

/-- A phrase in front of `rest` ends there. -/
def EndsBefore (p : Nonterminal) (rest : List Token) : Prop := p.stopsAt (kindAhead rest) = true

variable {p q : Nonterminal} {rest : List Token} {t : Token} {k : TokenKind}

/-- A phrase ends before a token of a kind that stops it. -/
theorem endsBefore_cons (ht : t.kind = k) (h : p.stopsAt (some k) = true) :
    p.EndsBefore (t :: rest) := by
  rw [EndsBefore, kindAhead_cons, ht]
  exact h

/-- A phrase that no token extends ends before any. -/
theorem endsBefore_of_extending (hp : p ≠ params) (hext : p.extending = []) :
    p.EndsBefore rest := by
  unfold EndsBefore
  cases kindAhead rest with
  | none => simpa [stopsAt] using hp
  | some k => simp [stopsAt, hp, hext]

/-- A phrase ends wherever one does that more tokens extend. There are finitely many kinds to
compare, so `decide` settles the premise. -/
theorem EndsBefore.mono
    (h : ∀ next ∈ none :: TokenKind.all.map some, p.stopsAt next = true → q.stopsAt next = true)
    (hp : p.EndsBefore rest) : q.EndsBefore rest := by
  refine h _ ?_ hp
  cases kindAhead rest with
  | none => exact List.mem_cons_self
  | some k => exact List.mem_cons_of_mem _ (List.mem_map_of_mem (TokenKind.mem_all k))

/-- Where a phrase ends, no token follows that would extend it. -/
theorem EndsBefore.kindAhead_ne (hp : p.EndsBefore rest) (hk : p.stopsAt (some k) = false) :
    kindAhead rest ≠ some k := by
  intro h
  rw [EndsBefore, h, hk] at hp
  cases hp

/-- Parameters end before a closing parenthesis and nowhere else. -/
theorem kindAhead_of_params (h : params.EndsBefore rest) : kindAhead rest = some .closeParen := by
  unfold EndsBefore at h
  cases hk : kindAhead rest with
  | none =>
    rw [hk] at h
    cases h
  | some k =>
    rw [hk] at h
    exact congrArg some (eq_of_beq h)

end Nonterminal

/-! ## The beginning of a phrase -/

/-- The first tokens of an expression: never a closing parenthesis, nor a name before a colon. -/
def BeginsExpr (ts : List Token) : Prop :=
  ∃ t us, ts = t :: us ∧
    (t.kind ∈ [.openBracket, .openParen, .number, .float] ∨
      t.kind = .identifier ∧ kindAhead us ≠ some .colon)

/-- No other kinds of tokens begin an expression. -/
theorem BeginsExpr.kindAhead_ne {ts : List Token} (h : BeginsExpr ts) {k : TokenKind}
    (hk : k ∉ [.identifier, .openBracket, .openParen, .number, .float]) :
    kindAhead ts ≠ some k := by
  obtain ⟨t, us, rfl, ht⟩ := h
  rintro ⟨⟩
  rcases ht with ht | ⟨ht, -⟩
  · exact hk (List.mem_cons_of_mem _ ht)
  · rw [ht] at hk
    exact hk List.mem_cons_self

/-- A parenthesis before an expression opens no closure. -/
theorem BeginsExpr.not_opensClosure {t : Token} {ts : List Token} (h : BeginsExpr ts)
    (last : Position) : Cursor.opensClosure ⟨t :: ts, last⟩ = false := by
  obtain ⟨u, us, rfl, hu⟩ := h
  have hclose : u.kind ≠ .closeParen := fun heq =>
    BeginsExpr.kindAhead_ne ⟨u, us, rfl, hu⟩ (k := .closeParen) (by decide) (congrArg some heq)
  have hcolon : u.kind = .identifier → kindAhead us ≠ some .colon := by
    rintro heq
    rcases hu with hu | ⟨-, hu⟩
    · rw [heq] at hu
      exact absurd hu (by decide)
    · exact hu
  cases us with
  | nil => simp [Cursor.opensClosure, Cursor.kind?, hclose]
  | cons v vs =>
    have hv : u.kind = .identifier → v.kind ≠ .colon := fun heq h =>
      hcolon heq (congrArg some h)
    simpa [Cursor.opensClosure, Cursor.kind?, hclose] using fun _ => hv

/-- A factor begins as an expression does, unless a colon behind it makes its name a parameter. -/
theorem Factor.begins {f : Factor} {ts rest : List Token} (h : Reads f.yield ts)
    (hrest : kindAhead rest ≠ some .colon) : BeginsExpr (ts ++ rest) := by
  cases f with
  | var name indices =>
    rw [Factor.yield] at h
    obtain ⟨t, us, rfl, ht, hus⟩ := reads_cons.1 h
    refine ⟨t, us ++ rest, rfl, .inr ⟨ht.1, ?_⟩⟩
    -- Behind the name there is a bracket, or what follows the factor.
    cases indices with
    | nil =>
      rw [Indices.yield, reads_nil] at hus
      rw [hus]
      exact hrest
    | cons e es =>
      rw [Indices.yield] at hus
      obtain ⟨op, vs, rfl, hop, -⟩ := reads_cons.1 hus
      rw [List.cons_append, kindAhead_cons, hop]
      decide
  | call callee args =>
    rw [Factor.yield] at h
    obtain ⟨t, us, rfl, ht, hus⟩ := reads_cons.1 h
    obtain ⟨op, vs, rfl, hop, -⟩ := reads_cons.1 hus
    refine ⟨t, op :: vs ++ rest, rfl, .inr ⟨ht.1, ?_⟩⟩
    rw [List.cons_append, kindAhead_cons, hop]
    decide
  | int value =>
    rw [Factor.yield] at h
    obtain ⟨t, us, rfl, ht, -⟩ := reads_cons.1 h
    exact ⟨t, us ++ rest, rfl, .inl (by rw [ht.1]; decide)⟩
  | float value =>
    rw [Factor.yield] at h
    obtain ⟨t, us, rfl, ht, -⟩ := reads_cons.1 h
    exact ⟨t, us ++ rest, rfl, .inl (by rw [ht.1]; decide)⟩
  | paren inner =>
    rw [Factor.yield] at h
    obtain ⟨t, us, rfl, ht, -⟩ := reads_cons.1 h
    exact ⟨t, us ++ rest, rfl, .inl (by rw [ht.kind_eq]; decide)⟩

/-- A variable or a call begins with its name. -/
theorem Factor.begins_identifier {f : Factor} {ts : List Token}
    (hmakes : Nonterminal.idFactor.Makes f) (h : Reads f.yield ts) :
    ∃ id us, ts = id :: us ∧ id.kind = .identifier := by
  cases f with
  | var name indices =>
    rw [Factor.yield] at h
    obtain ⟨id, us, rfl, hid, -⟩ := reads_cons.1 h
    exact ⟨id, us, rfl, hid.1⟩
  | call callee args =>
    rw [Factor.yield] at h
    obtain ⟨id, us, rfl, hid, -⟩ := reads_cons.1 h
    exact ⟨id, us, rfl, hid.1⟩
  | _ => exact hmakes.elim

/-- Tokens of a condition or a sum, split behind the first factor. -/
def LeadsWithFactor (ts : List Token) : Prop :=
  ∃ (f : Factor) (us vs : List Token),
    Reads f.yield us ∧ kindAhead vs ∈ [none, some .mulOp, some .addOp, some .relOp] ∧ ts = us ++ vs

/-- What an operator adds to a row leaves the factor at its front. -/
theorem LeadsWithFactor.append_cons {ts us : List Token} {op : Token} (h : LeadsWithFactor ts)
    (hop : op.kind ∈ [.mulOp, .addOp, .relOp]) : LeadsWithFactor (ts ++ op :: us) := by
  obtain ⟨f, vs, ws, hf, hws, rfl⟩ := h
  refine ⟨f, vs, ws ++ op :: us, hf, ?_, List.append_assoc ..⟩
  cases ws with
  | nil => exact List.mem_cons_of_mem _ (List.mem_map_of_mem hop)
  | cons w ws => exact hws

/-- A term leads with its first factor. -/
theorem Term.leads {a : Term} {ts : List Token} (h : Reads a.yield ts) : LeadsWithFactor ts := by
  cases a with
  | single factor =>
    rw [Term.yield] at h
    exact ⟨factor, ts, [], h, List.mem_cons_self, (List.append_nil ts).symm⟩
  | chain factor mulop next =>
    rw [Term.yield] at h
    obtain ⟨us, vs, rfl, hus, hvs⟩ := reads_append.1 h
    obtain ⟨op, ws, rfl, hop, -⟩ := reads_cons.1 hvs
    refine ⟨factor, us, op :: ws, hus, ?_, rfl⟩
    rw [kindAhead_cons, hop.1]
    decide

/-- A sum leads with the first factor of its first term. -/
theorem AddExpr.leads {a : AddExpr} {ts : List Token} (h : Reads a.yield ts) :
    LeadsWithFactor ts := by
  cases a with
  | single term =>
    rw [AddExpr.yield] at h
    exact Term.leads h
  | chain term addop next =>
    rw [AddExpr.yield] at h
    obtain ⟨us, vs, rfl, hus, hvs⟩ := reads_append.1 h
    obtain ⟨op, ws, rfl, hop, -⟩ := reads_cons.1 hvs
    exact (Term.leads hus).append_cons (by rw [hop.1]; decide)

/-- A condition leads with the first factor of its first sum. -/
theorem Condition.leads {c : Condition} {ts : List Token} (h : Reads c.yield ts) :
    LeadsWithFactor ts := by
  cases c with
  | single left relop right =>
    rw [Condition.yield] at h
    obtain ⟨us, vs, rfl, hus, hvs⟩ := reads_append.1 h
    obtain ⟨op, ws, rfl, hop, -⟩ := reads_cons.1 hvs
    exact (AddExpr.leads hus).append_cons (by rw [hop.1]; decide)
  | chain left relop right boolop next =>
    rw [Condition.yield, List.append_assoc] at h
    obtain ⟨us, vs, rfl, hus, hvs⟩ := reads_append.1 h
    obtain ⟨op, ws, rfl, hop, -⟩ := reads_cons.1 hvs
    exact (AddExpr.leads hus).append_cons (by rw [hop.1]; decide)

/-- An expression leads with a factor, if it is no array literal and no closure. -/
theorem Expr.leads {e : Expr} {ts : List Token} (h : Reads e.yield ts)
    (hmakes : Nonterminal.condition.Makes e) : LeadsWithFactor ts := by
  cases e with
  | cond condition =>
    rw [Expr.yield] at h
    exact Condition.leads h
  | add sum =>
    rw [Expr.yield] at h
    exact AddExpr.leads h
  | _ => exact hmakes.elim

/-- A row that leads with a factor begins as an expression does. -/
theorem LeadsWithFactor.begins {ts rest : List Token} (h : LeadsWithFactor ts)
    (hrest : kindAhead rest ≠ some .colon) : BeginsExpr (ts ++ rest) := by
  obtain ⟨f, us, vs, hf, hvs, rfl⟩ := h
  rw [List.append_assoc]
  refine Factor.begins hf ?_
  cases vs with
  | nil => exact hrest
  | cons v vs =>
    intro hv
    rw [List.cons_append, kindAhead_cons] at hv
    rw [kindAhead_cons, hv] at hvs
    revert hvs
    decide

/-- So every expression begins as an expression should, in front of anything but a colon. -/
theorem Expr.begins {e : Expr} {ts rest : List Token} (h : Reads e.yield ts)
    (hrest : kindAhead rest ≠ some .colon) : BeginsExpr (ts ++ rest) := by
  cases e with
  | cond condition => exact (Expr.leads h trivial).begins hrest
  | add sum => exact (Expr.leads h trivial).begins hrest
  | array entries =>
    rw [Expr.yield] at h
    obtain ⟨t, us, rfl, ht, -⟩ := reads_cons.1 h
    exact ⟨t, us ++ rest, rfl, .inl (by rw [ht.kind_eq]; decide)⟩
  | closure params result body =>
    rw [Expr.yield] at h
    simp only [List.cons_append] at h
    obtain ⟨t, us, rfl, ht, -⟩ := reads_cons.1 h
    exact ⟨t, us ++ rest, rfl, .inl (by rw [ht.kind_eq]; decide)⟩

/-- A factor is no closure: if it starts with a parenthesis, an expression follows. -/
theorem Factor.not_opensClosure {f : Factor} {ts : List Token} (h : Reads f.yield ts)
    (rest : List Token) (last : Position) : Cursor.opensClosure ⟨ts ++ rest, last⟩ = false := by
  cases f with
  | paren inner =>
    rw [Factor.yield, List.cons_append] at h
    obtain ⟨t, us, rfl, ht, hus⟩ := reads_cons.1 h
    obtain ⟨vs, ws, rfl, hvs, hws⟩ := reads_append.1 hus
    obtain ⟨close, xs, rfl, hclose, -⟩ := reads_cons.1 hws
    -- The inner expression ends at the closing parenthesis, which is no colon.
    rw [List.cons_append, List.append_assoc]
    refine BeginsExpr.not_opensClosure (Expr.begins hvs ?_) last
    rw [List.cons_append, kindAhead_cons, hclose]
    decide
  | _ =>
    rw [Factor.yield] at h
    obtain ⟨t, us, rfl, ht, -⟩ := reads_cons.1 h
    simp [Cursor.opensClosure, Cursor.isAt, Cursor.kind?, ht.kind_eq, Terminal.kind]

/-- A row that leads with a factor is not taken for a closure. -/
theorem LeadsWithFactor.not_opensClosure {ts : List Token} (h : LeadsWithFactor ts)
    (rest : List Token) (last : Position) : Cursor.opensClosure ⟨ts ++ rest, last⟩ = false := by
  obtain ⟨f, us, vs, hf, -, rfl⟩ := h
  rw [List.append_assoc]
  exact Factor.not_opensClosure hf _ last

/-- No factor begins with a bracket, so it is not taken for an array literal. -/
theorem Factor.kindAhead_ne_openBracket {f : Factor} {ts : List Token} (h : Reads f.yield ts)
    (rest : List Token) : kindAhead (ts ++ rest) ≠ some .openBracket := by
  cases f
  all_goals
    rw [Factor.yield] at h
    obtain ⟨t, us, rfl, ht, -⟩ := reads_cons.1 h
    rw [List.cons_append, kindAhead_cons, ht.kind_eq]
    intro heq
    cases heq

/-- A row that leads with a factor is not taken for an array literal either. -/
theorem LeadsWithFactor.kindAhead_ne_openBracket {ts : List Token} (h : LeadsWithFactor ts)
    (rest : List Token) : kindAhead (ts ++ rest) ≠ some .openBracket := by
  obtain ⟨f, us, vs, hf, -, rfl⟩ := h
  rw [List.append_assoc]
  exact Factor.kindAhead_ne_openBracket hf _

/-- A parameter begins with a name before a colon, which no expression does. -/
theorem Param.begins {p : Param} {ts : List Token} (h : Reads p.yield ts) :
    ∃ id colon us, ts = id :: colon :: us ∧ id.kind = .identifier ∧ colon.kind = .colon := by
  obtain ⟨name, type, default?⟩ := p
  cases default?
  all_goals
    simp only [Param.yield, List.cons_append] at h
    obtain ⟨id, us, rfl, hid, hus⟩ := reads_cons.1 h
    obtain ⟨colon, vs, rfl, hcolon, -⟩ := reads_cons.1 hus
    exact ⟨id, colon, vs, rfl, hid.1, hcolon⟩

/-- Parameters that are not missing begin as the first of them does. -/
theorem Params.begins {ps : List Param} {ts : List Token} (hps : ps ≠ [])
    (h : Reads (Params.yield ps) ts) :
    ∃ id colon us, ts = id :: colon :: us ∧ id.kind = .identifier ∧ colon.kind = .colon := by
  obtain ⟨p, qs, rfl⟩ := List.exists_cons_of_ne_nil hps
  by_cases hqs : qs = []
  · subst hqs
    rw [Params.yield] at h
    exact Param.begins h
  · rw [Params.yield_cons hqs] at h
    obtain ⟨us, vs, rfl, hus, -⟩ := reads_append.1 h
    obtain ⟨id, colon, ws, rfl, hid, hcolon⟩ := Param.begins hus
    exact ⟨id, colon, ws ++ vs, rfl, hid, hcolon⟩

/-- A parenthesis before parameters and a closing parenthesis opens a closure. -/
theorem Params.opensClosure {ps : List Param} {op close : Token} {ts : List Token}
    (hop : op.kind = .openParen) (h : Reads (Params.yield ps) ts)
    (hclose : close.kind = .closeParen) (rest : List Token) (last : Position) :
    Cursor.opensClosure ⟨op :: (ts ++ close :: rest), last⟩ = true := by
  by_cases hps : ps = []
  · subst hps
    rw [Params.yield, reads_nil] at h
    simp [Cursor.opensClosure, Cursor.isAt, Cursor.kind?, h, hop, hclose]
  · obtain ⟨id, colon, us, rfl, hid, hcolon⟩ := Params.begins hps h
    simp [Cursor.opensClosure, Cursor.isAt, Cursor.kind?, hop, hid, hcolon]

/-- Arguments that are not missing begin with a name. -/
theorem Args.begins {as : List Arg} {ts : List Token} (has : as ≠ [])
    (h : Reads (Args.yield as) ts) : ∃ id us, ts = id :: us ∧ id.kind = .identifier := by
  obtain ⟨⟨name, value⟩, bs, rfl⟩ := List.exists_cons_of_ne_nil has
  by_cases hbs : bs = []
  · subst hbs
    simp only [Args.yield, Arg.yield, reads_cons] at h
    obtain ⟨id, us, rfl, hid, -⟩ := h
    exact ⟨id, us, rfl, hid.1⟩
  · simp only [Args.yield_cons hbs, Arg.yield, List.cons_append, reads_cons] at h
    obtain ⟨id, us, rfl, hid, -⟩ := h
    exact ⟨id, us, rfl, hid.1⟩

/-- Expressions that are not missing begin as the first of them does. -/
theorem Exprs.begins {es : List Expr} {ts rest : List Token} (hes : es ≠ [])
    (h : Reads (Exprs.yield es) ts) (hrest : kindAhead rest ≠ some .colon) :
    BeginsExpr (ts ++ rest) := by
  obtain ⟨e, fs, rfl⟩ := List.exists_cons_of_ne_nil hes
  by_cases hfs : fs = []
  · subst hfs
    rw [Exprs.yield] at h
    exact Expr.begins h hrest
  · simp only [Exprs.yield_cons hfs, reads_append, reads_cons] at h
    obtain ⟨us, _, rfl, he, comma, vs, rfl, hcomma, -⟩ := h
    rw [List.append_assoc]
    refine Expr.begins he ?_
    rw [List.cons_append, kindAhead_cons, hcomma]
    decide

/-- A statement has at least one token. -/
theorem Stmt.begins {ts : List Token} : ∀ s : Stmt, Reads s.yield ts → ∃ t us, ts = t :: us := by
  intro s h
  cases s
  all_goals
    simp only [Stmt.yield, List.cons_append, reads_cons] at h
    obtain ⟨t, us, rfl, -⟩ := h
    exact ⟨t, us, rfl⟩

end FrontEnd
