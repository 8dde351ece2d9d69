import FrontEnd.Proofs.Parsing.Blame
import FrontEnd.Proofs.Parsing.Exactness

/-!
# The discipline of the cursor

A session works on one cursor, by looking, advancing and parsing in any order and going on after
faults. All it ever does to the tokens is to take some off the front.

- `Action`, `Action.trail`: the actions of a session and the cursors that it goes through.
- `Action.behind_apply`, `trail_places`: one action only moves forward, and so does a session.
- `Nonterminal.consumes_of_parse`: a phrase consumes something, but for the few that may be empty.
- `Nonterminal.stmt_parse_none_iff`: which lookahead starts no statement.
- `cursor_discipline`: all together, and that no phrase needs a larger bound than it is given.
-/

namespace FrontEnd

open FrontEnd.Parser

/-! ## Sessions -/

/-- Parses a condition that has to be a comparison. It is no phrase of its own. -/
def parseComparison (keyword : String) (c : Cursor) : Except Diagnostic Condition × Cursor :=
  run (fun n => Production.comparison (Nonterminal.parser n) keyword) c

/-- What can be done with a cursor. -/
inductive Action where
  /-- Looks at the lookahead. -/
  | current
  /-- Looks at the kind of a token some places after the lookahead. -/
  | peek (n : Nat)
  /-- Asks for the kind of the lookahead. -/
  | isAt (kind : TokenKind)
  /-- Asks for the place of the lookahead. -/
  | position
  /-- Makes the diagnostic for a lookahead that is not what is due. -/
  | unexpected (expected : String)
  /-- Consumes the lookahead, if there is one. -/
  | advance
  /-- Consumes a lookahead of a kind. -/
  | expect (kind : TokenKind)
  /-- Parses a phrase. -/
  | parse (p : Nonterminal)
  /-- Parses a comparison behind a keyword. -/
  | compare (keyword : String)

namespace Action

/-- What an action answers. -/
abbrev Answer : Action → Type
  | current | advance => Option Token
  | peek _ => Option TokenKind
  | isAt _ => Bool
  | position => Position
  | unexpected _ => Diagnostic
  | expect _ => Except Diagnostic Token
  | parse p => Except Diagnostic p.Tree
  | compare _ => Except Diagnostic Condition

/-- The answer of an action, and the cursor behind it. -/
def apply : (action : Action) → Cursor → action.Answer × Cursor
  | current, c => (c.rest.head?, c)
  | peek n, c => (c.kind? n, c)
  | isAt kind, c => (c.isAt kind, c)
  | position, c => (c.position, c)
  | unexpected expected, c => (c.unexpected expected, c)
  | advance, c => (c.rest.head?, c.advance)
  | expect kind, c => run (fun _ => Parser.expect kind) c
  | parse p, c => p.parse c
  | compare keyword, c => parseComparison keyword c

/-- The cursors that a session goes through, with or without faults. -/
def trail : List Action → Cursor → List Cursor
  | [], c => [c]
  | action :: actions, c => c :: trail actions (action.apply c).2

end Action

/-! ## Moving forward -/

/-- The second cursor stands behind the first, among the same tokens. -/
def Cursor.Behind (c next : Cursor) : Prop := ∃ ts, c = ⟨ts ++ next.rest, next.last⟩

namespace Cursor

/-- A cursor is behind itself. -/
theorem Behind.refl (c : Cursor) : c.Behind c := ⟨[], rfl⟩

/-- Advancing moves forward, or stays at the end of the input. -/
theorem behind_advance (c : Cursor) : c.Behind c.advance := by
  obtain ⟨_ | ⟨t, ts⟩, last⟩ := c
  · exact ⟨[], rfl⟩
  · exact ⟨[t], rfl⟩

end Cursor

/-- A steady parser ends behind the cursor where it began. -/
theorem Parser.Steady.behind_run {α : Type} {p : ∀ n, Parser n α} (hp : ∀ n, (p n).Steady (p n))
    (c : Cursor) : c.Behind (run p c).2 := by
  have hstop : (run p c).2 = (p (c.rest.length + 1)).stop ⟨c, Nat.lt_succ_self _⟩ := by
    rw [run_eq_outcome, Parser.stop]
    cases p (c.rest.length + 1) ⟨c, Nat.lt_succ_self _⟩ <;> rfl
  rw [hstop]
  exact (hp _).exists_consumed ⟨c, Nat.lt_succ_self _⟩

/-- The parser of a phrase is steady, as every predictive parser. -/
theorem Nonterminal.parser_steady (p : Nonterminal) (n : Nat) :
    (p.parser n).Steady (p.parser n) :=
  ((parser_predictive (Nat.le_refl n)).predicts p).steady

/-- The parser of a comparison is predictive, as those of whole phrases are. -/
theorem comparison_predictive (keyword : String) (n : Nat) :
    (Production.comparison (Nonterminal.parser n) keyword).Predicts
      (Production.comparison (Nonterminal.parser n) keyword) fun c ts => Reads c.yield ts :=
  Production.comparison_predicts (Nonterminal.parser_predictive (Nat.le_refl n)) keyword

namespace Action

/-- One action takes tokens off the front, if any. -/
theorem behind_apply (action : Action) (c : Cursor) : c.Behind (action.apply c).2 := by
  cases action with
  | advance => exact c.behind_advance
  | expect kind => exact Steady.behind_run (fun _ => .expect) c
  | parse p => exact Steady.behind_run p.parser_steady c
  | compare keyword =>
    exact Steady.behind_run (fun n => (comparison_predictive keyword n).steady) c
  | _ => exact .refl c

/-- The cursors of a session stand at places in one list of tokens, each no further back than the
one before. -/
theorem trail_places (tokens : List Token) (last : Position) (actions : List Action) (i : Nat)
    (hi : i ≤ tokens.length) :
    ∃ places, trail actions ⟨tokens.drop i, last⟩ =
        (i :: places).map (fun j => ⟨tokens.drop j, last⟩) ∧
      (i :: places).Pairwise (· ≤ ·) ∧ ∀ j ∈ i :: places, j ≤ tokens.length := by
  induction actions generalizing i with
  | nil => exact ⟨[], rfl, List.pairwise_singleton _ i, List.forall_mem_singleton.2 hi⟩
  | cons action actions ih =>
    -- The action takes some `ts` off, so the next cursor stands that much further on.
    obtain ⟨ts, hts⟩ := action.behind_apply ⟨tokens.drop i, last⟩
    generalize hnext : (action.apply ⟨tokens.drop i, last⟩).2 = next at hts
    have hlast : last = next.last := congrArg Cursor.last hts
    have hrest : tokens.drop i = ts ++ next.rest := congrArg Cursor.rest hts
    have hplace : next = ⟨tokens.drop (i + ts.length), last⟩ := by
      rw [← List.drop_drop, hrest, List.drop_left, hlast]
    have hle : i + ts.length ≤ tokens.length := by
      have hlength := congrArg List.length hrest
      rw [List.length_drop, List.length_append] at hlength
      omega
    obtain ⟨places, htrail, hsorted, hbound⟩ := ih (i + ts.length) hle
    refine ⟨(i + ts.length) :: places, ?_, ?_, List.forall_mem_cons.2 ⟨hi, hbound⟩⟩
    · rw [trail, hnext, hplace, htrail]
      rfl
    · refine List.pairwise_cons.2 ⟨fun j hj => ?_, hsorted⟩
      obtain rfl | hj := List.mem_cons.1 hj
      · exact Nat.le_add_right i ts.length
      · exact Nat.le_trans (Nat.le_add_right i ts.length) (List.rel_of_pairwise_cons hsorted hj)

end Action

/-! ## Phrases that consume something -/

theorem levels_ne_nil {row : List Terminal} (depth : Nat) (h : row ≠ []) :
    levels depth row ≠ [] := by
  intro hnil
  rw [levels, List.append_eq_nil_iff, List.append_eq_nil_iff] at hnil
  exact h hnil.1.2

/-- A type has at least the token of its base. -/
theorem Ty.yield_ne_nil (t : Ty) : t.yield ≠ [] := by
  cases t with
  | prim name depth =>
    rw [Ty.yield]
    exact levels_ne_nil depth (List.cons_ne_nil _ _)
  | fn params result depth =>
    rw [Ty.yield]
    exact levels_ne_nil depth (List.cons_ne_nil _ _)

/-- A factor has at least one token. -/
theorem Factor.yield_ne_nil (f : Factor) : f.yield ≠ [] := by
  cases f <;> exact List.cons_ne_nil _ _

theorem Term.yield_ne_nil (t : Term) : t.yield ≠ [] := by
  cases t with
  | single factor => exact factor.yield_ne_nil
  | chain factor mulop next => exact List.append_ne_nil_of_left_ne_nil factor.yield_ne_nil _

theorem AddExpr.yield_ne_nil (a : AddExpr) : a.yield ≠ [] := by
  cases a with
  | single term => exact term.yield_ne_nil
  | chain term addop next => exact List.append_ne_nil_of_left_ne_nil term.yield_ne_nil _

theorem Condition.yield_ne_nil (c : Condition) : c.yield ≠ [] := by
  cases c with
  | single left relop right => exact List.append_ne_nil_of_left_ne_nil left.yield_ne_nil _
  | chain left relop right boolop next =>
    refine List.append_ne_nil_of_left_ne_nil ?_ _
    exact List.append_ne_nil_of_left_ne_nil left.yield_ne_nil _

/-- An expression has at least one token, whatever its form. -/
theorem Expr.yield_ne_nil (e : Expr) : e.yield ≠ [] := by
  cases e with
  | cond condition => exact condition.yield_ne_nil
  | add sum => exact sum.yield_ne_nil
  | array entries => exact List.cons_ne_nil _ _
  | closure params result body => exact List.cons_ne_nil _ _

theorem Param.yield_ne_nil (p : Param) : p.yield ≠ [] := by
  obtain ⟨name, type, _ | value⟩ := p <;> exact List.cons_ne_nil _ _

theorem Arg.yield_ne_nil (a : Arg) : a.yield ≠ [] := by
  obtain ⟨name, value⟩ := a
  exact List.cons_ne_nil _ _

/-- A statement has at least one token. -/
theorem Stmt.yield_ne_nil (s : Stmt) : s.yield ≠ [] := by
  cases s <;> exact List.cons_ne_nil _ _

namespace Nonterminal

/-- Whether a phrase with this tree takes a token at least. Parameters, indices and statements may
be none, and there may be no statement. -/
def takesToken : ∀ p : Nonterminal, p.Tree → Bool
  | params, _ | indices, _ | stmts, _ => false
  | stmt, s => s.isSome
  | _, _ => true

/-- A phrase that takes a token is made of at least one. -/
theorem yield_ne_nil (p : Nonterminal) {tree : p.Tree} (hmakes : p.Makes tree)
    (h : p.takesToken tree = true) : p.yield tree ≠ [] := by
  cases p
  case params | indices | stmts => cases h
  case type | typeBase => exact Ty.yield_ne_nil tree
  case param => exact Param.yield_ne_nil tree
  case expr | condition | array | closure => exact Expr.yield_ne_nil tree
  case addExpr => exact AddExpr.yield_ne_nil tree
  case term => exact Term.yield_ne_nil tree
  case factor | idFactor => exact Factor.yield_ne_nil tree
  case ifStmt | whileStmt | idStmt | returnStmt | letStmt | funStmt => exact Stmt.yield_ne_nil tree
  case arguments => exact List.cons_ne_nil _ _
  case arg => exact Arg.yield_ne_nil tree
  case stmt =>
    obtain ⟨s, rfl⟩ := Option.isSome_iff_exists.1 h
    exact s.yield_ne_nil
  case paramList =>
    obtain ⟨first, _ | ⟨next, rest⟩, rfl⟩ := List.exists_cons_of_ne_nil hmakes
    · exact first.yield_ne_nil
    · exact List.append_ne_nil_of_left_ne_nil first.yield_ne_nil _
  case exprList =>
    obtain ⟨first, _ | ⟨next, rest⟩, rfl⟩ := List.exists_cons_of_ne_nil hmakes
    · exact first.yield_ne_nil
    · exact List.append_ne_nil_of_left_ne_nil first.yield_ne_nil _
  case argList =>
    obtain ⟨first, _ | ⟨next, rest⟩, rfl⟩ := List.exists_cons_of_ne_nil hmakes
    · exact first.yield_ne_nil
    · exact List.append_ne_nil_of_left_ne_nil first.yield_ne_nil _

/-- A phrase leaves fewer tokens than it found, unless it is one that may be empty. -/
theorem consumes_of_parse {p : Nonterminal} {c stop : Cursor} {tree : p.Tree}
    (h : p.parse c = (.ok tree, stop)) (htakes : p.takesToken tree = true) :
    stop.rest.length < c.rest.length := by
  obtain ⟨ts, rfl, hmakes, hreads⟩ := derives_of_parse h
  have hlength : (p.yield tree).length = ts.length := List.Forall₂.length_eq hreads
  have hpos : 0 < (p.yield tree).length := List.length_pos_iff.2 (p.yield_ne_nil hmakes htakes)
  rw [List.length_append]
  omega

end Nonterminal

/-- A comparison that is parsed has consumed something. -/
theorem parseComparison_consumes {keyword : String} {c stop : Cursor} {condition : Condition}
    (h : parseComparison keyword c = (.ok condition, stop)) :
    stop.rest.length < c.rest.length := by
  obtain ⟨ts, rfl, hreads⟩ := Answers.run (fun n => (comparison_predictive keyword n).answers) h
  have hlength : condition.yield.length = ts.length := List.Forall₂.length_eq hreads
  have hpos : 0 < condition.yield.length := List.length_pos_iff.2 condition.yield_ne_nil
  rw [List.length_append]
  omega

/-- A larger bound changes nothing in a comparison either. -/
theorem outcome_comparison (keyword : String) {n : Nat} (c : Cursor.Below n) :
    outcome (Production.comparison (Nonterminal.parser n) keyword c) =
      parseComparison keyword c.1 := by
  rw [parseComparison, run_eq_outcome]
  refine outcome_eq_of_within
    (Production.comparison_lockstep ?_ keyword c _ (Correspondence.within_self c.1))
  exact fun p => Nonterminal.parser_lockstep n (c.1.rest.length + 1) p

/-! ## Lookaheads that start no statement -/

namespace Nonterminal

/-- The kinds of tokens that start a statement. -/
def startsStmt : TokenKind → Bool
  | .kwIf | .kwWhile | .kwReturn | .kwLet | .kwFun | .identifier => true
  | _ => false

/-- Whether a token opens a statement is a matter of its kind. -/
theorem stmtRest_isSome {n : Nat} (below : ∀ p : Nonterminal, Parser n p.Tree) (t : Token) :
    (Production.stmtRest below t).isSome = startsStmt t.kind := by
  unfold Production.stmtRest startsStmt
  split <;> simp_all

/-- Where a statement starts, there is one or a fault. -/
theorem stmt_ne_none {n : Nat} (below : ∀ p : Nonterminal, Parser n p.Tree) {t : Token}
    {ts : List Token} {last : Position} (hstarts : startsStmt t.kind = true)
    (h : (⟨t :: ts, last⟩ : Cursor).rest.length < n + 1) (s : Cursor.Below (n + 1)) :
    Production.stmt below ⟨⟨t :: ts, last⟩, h⟩ ≠ .ok none s := by
  rw [← stmtRest_isSome below t, Option.isSome_iff_exists] at hstarts
  obtain ⟨rest, hrest⟩ := hstarts
  intro hrun
  unfold Production.stmt at hrun
  rw [branch_cons_some (congrArg (Option.map _) hrest)] at hrun
  obtain ⟨mid, hmid, -⟩ := raise_eq_ok hrun
  obtain ⟨_, _, -, hanswer⟩ := bind_eq_ok hmid
  cases hanswer

/-- Where no statement is opened, the missing statement ends at once. -/
theorem stmt_endsBefore {c : Cursor} (h : ∀ kind, c.kind? 0 = some kind → startsStmt kind = false) :
    stmt.EndsBefore c.rest := by
  have hkinds : ∀ kind, startsStmt kind = false → stmt.stopsAt (some kind) = true := by
    intro kind
    cases kind <;> decide
  obtain ⟨_ | ⟨t, ts⟩, last⟩ := c
  · rfl
  · exact hkinds t.kind (h t.kind rfl)

/-- There is no statement exactly where the lookahead starts none, and then nothing is consumed. -/
theorem stmt_parse_none_iff (c stop : Cursor) :
    stmt.parse c = (.ok none, stop) ↔
      stop = c ∧ ∀ kind, c.kind? 0 = some kind → startsStmt kind = false := by
  constructor
  · intro hparse
    -- No statement has the empty yield, so nothing was consumed for it.
    obtain ⟨ts, hc, -, hreads⟩ := derives_of_parse hparse
    obtain rfl : ts = [] := reads_nil.1 hreads
    refine ⟨hc.symm, fun kind hkind => ?_⟩
    obtain ⟨t, hhead, rfl⟩ := Option.map_eq_some_iff.1 hkind
    obtain ⟨_ | ⟨u, us⟩, last⟩ := c
    · cases hhead
    · obtain rfl : u = t := Option.some.inj hhead
      obtain ⟨s, hrun, -⟩ := parse_eq_answer hparse
      exact Bool.eq_false_iff.2 fun hstarts => stmt_ne_none _ hstarts _ s hrun
  · rintro ⟨rfl, hkinds⟩
    have hnone : Reads (stmt.yield none) [] := reads_nil.2 rfl
    exact parse_eq_ok .stmt trivial hnone (stmt_endsBefore hkinds) stop.last

end Nonterminal

/-! ## All together -/

/-- **Discipline of the cursor**: through any session on one list of tokens, the cursors stand at
places of that list which never go back and never pass its end. Wherever the session stands, every
phrase ends, in the same way at every bound that admits the cursor, and so does a comparison; an
answer has consumed a token unless the phrase may be empty; and there is no statement exactly where
the lookahead starts none, and then nothing is consumed. -/
theorem cursor_discipline (tokens : List Token) (file : String) (actions : List Action) :
    (∃ places : List Nat,
      Action.trail actions (.ofTokens tokens file) =
        places.map (fun i => ⟨tokens.drop i, (Cursor.ofTokens tokens file).last⟩) ∧
      places.Pairwise (· ≤ ·) ∧ ∀ i ∈ places, i ≤ tokens.length) ∧
    ∀ c ∈ Action.trail actions (.ofTokens tokens file),
      (∀ (n : Nat) (h : c.rest.length < n),
        (∀ p : Nonterminal, outcome (p.parser n ⟨c, h⟩) = p.parse c) ∧
        ∀ keyword, outcome (Production.comparison (Nonterminal.parser n) keyword ⟨c, h⟩) =
          parseComparison keyword c) ∧
      (∀ (p : Nonterminal) (tree : p.Tree) (stop : Cursor), p.parse c = (.ok tree, stop) →
        p.takesToken tree = true → stop.rest.length < c.rest.length) ∧
      (∀ keyword condition stop, parseComparison keyword c = (.ok condition, stop) →
        stop.rest.length < c.rest.length) ∧
      ∀ stop, Nonterminal.stmt.parse c = (.ok none, stop) ↔
        stop = c ∧ ∀ kind, c.kind? 0 = some kind → Nonterminal.startsStmt kind = false := by
  constructor
  · have hstart : 0 ≤ tokens.length := Nat.zero_le _
    obtain ⟨places, htrail⟩ :=
      Action.trail_places tokens (Cursor.ofTokens tokens file).last actions 0 hstart
    exact ⟨0 :: places, htrail⟩
  · intro c _
    refine ⟨fun n h => ⟨fun p => p.outcome_bound ⟨c, h⟩, fun keyword =>
      outcome_comparison keyword ⟨c, h⟩⟩, ?_, ?_, Nonterminal.stmt_parse_none_iff c⟩
    · intro p tree stop hparse htakes
      exact Nonterminal.consumes_of_parse hparse htakes
    · intro keyword condition stop hparse
      exact parseComparison_consumes hparse

end FrontEnd
