import FrontEnd.Parser.Phrase
import FrontEnd.Proofs.Grammar.Yield

/-!
# Phrases and their trees

The yield of a tree does not depend on the phrase for which the tree is made, but not every tree of
a type is made for every phrase: a type base stands under no brackets, a list that a comma continues
has a member, and a condition is no array. `Nonterminal.Makes` says which trees a phrase makes, and
`Nonterminal.Derives` that tokens form a phrase with a given tree. Every phrase is made of some
tokens (`Nonterminal.exists_derives`).
-/

namespace FrontEnd

/-! ## Levels of arrays -/

@[simp] theorem levels_zero (row : List Terminal) : levels 0 row = row := by
  simp [levels]

/-- One more level is one more bracket on either side. -/
theorem levels_succ (depth : Nat) (row : List Terminal) :
    levels (depth + 1) row =
      .mark .openBracket :: levels depth row ++ [.mark .closeBracket] := by
  simp only [levels]
  rw [List.replicate_succ, List.replicate_succ']
  simp only [List.cons_append, List.append_assoc]

/-- The yield of a type is that of its base under the brackets of its levels. -/
theorem Ty.yield_eq_levels (t : Ty) : t.yield = levels t.depth (t.withDepth 0).yield := by
  cases t with
  | prim name d => simp only [Ty.yield, depth, withDepth, levels_zero]
  | fn params result d => simp only [Ty.yield, depth, withDepth, levels_zero]

/-- One more array level is one more pair of brackets. -/
theorem Ty.yield_withDepth_succ (t : Ty) (d : Nat) :
    (t.withDepth (d + 1)).yield =
      .mark .openBracket :: (t.withDepth d).yield ++ [.mark .closeBracket] := by
  cases t with
  | prim name _ => simp only [withDepth, Ty.yield, levels_succ]
  | fn params result _ => simp only [withDepth, Ty.yield, levels_succ]

/-- A type under brackets is one level above the type of its entries. -/
theorem Ty.exists_entry {t : Ty} {d : Nat} (h : t.depth = d + 1) :
    ∃ entry : Ty, t = entry.withDepth (entry.depth + 1) := by
  refine ⟨t.withDepth d, ?_⟩
  cases t with
  | prim name _ => exact congrArg (prim name) h
  | fn params result _ => exact congrArg (fn params result) h

/-! ## Lists with commas -/

/-- A comma stands between a parameter and those behind it. -/
theorem Params.yield_cons {p : Param} {ps : List Param} (h : ps ≠ []) :
    Params.yield (p :: ps) = p.yield ++ .mark .comma :: Params.yield ps := by
  cases ps with
  | nil => exact absurd rfl h
  | cons q ps => rw [Params.yield]

theorem Exprs.yield_cons {e : Expr} {es : List Expr} (h : es ≠ []) :
    Exprs.yield (e :: es) = e.yield ++ .mark .comma :: Exprs.yield es := by
  cases es with
  | nil => exact absurd rfl h
  | cons f es => rw [Exprs.yield]

theorem Args.yield_cons {a : Arg} {as : List Arg} (h : as ≠ []) :
    Args.yield (a :: as) = a.yield ++ .mark .comma :: Args.yield as := by
  cases as with
  | nil => exact absurd rfl h
  | cons b as => rw [Args.yield]

/-! ## Rows that some tokens meet -/

/-- Whether a terminal is met by a token that is written down at once: any mark or word, and the
numeral zero. -/
def Terminal.isEasy : Terminal → Bool
  | mark _ | word _ _ => true
  | int i => i == 0
  | float _ => false

/-- Rows without literals that have to be read are met by some tokens. -/
theorem exists_reads : ∀ row : List Terminal, row.all Terminal.isEasy = true →
    ∃ ts, Reads row ts := by
  intro row hrow
  induction row with
  | nil => exact ⟨[], .nil⟩
  | cons a row ih =>
    obtain ⟨ha, hrow⟩ := Bool.and_eq_true_iff.1 hrow
    obtain ⟨ts, hts⟩ := ih hrow
    obtain ⟨t, ht⟩ : ∃ t, a.Matches t := by
      cases a with
      | mark k => exact ⟨⟨k, k.category, ⟨1, defaultFile⟩⟩, rfl⟩
      | word k text => exact ⟨⟨k, text, ⟨1, defaultFile⟩⟩, rfl, rfl⟩
      | int i =>
        obtain rfl : i = 0 := eq_of_beq ha
        exact ⟨⟨.number, "0", ⟨1, defaultFile⟩⟩, rfl, by decide⟩
      | float x => cases ha
    exact ⟨t :: ts, .cons ht hts⟩

/-! ## The trees of a phrase -/

namespace Nonterminal

/-- Whether a phrase makes a tree of its type. -/
def Makes : ∀ p : Nonterminal, p.Tree → Prop
  | typeBase, t => t.depth = 0
  | paramList, ps => ps ≠ []
  | exprList, es => es ≠ []
  | argList, as => as ≠ []
  | condition, e => match e with | .cond _ | .add _ => True | _ => False
  | array, e => match e with | .array _ => True | _ => False
  | closure, e => match e with | .closure .. => True | _ => False
  | idFactor, f => match f with | .var .. | .call .. => True | _ => False
  | ifStmt, s => match s with | .ifThen .. | .ifElse .. => True | _ => False
  | whileStmt, s => match s with | .loop .. => True | _ => False
  | idStmt, s => match s with | .assign .. | .call .. => True | _ => False
  | returnStmt, s => match s with | .ret _ => True | _ => False
  | letStmt, s => match s with | .letVar .. => True | _ => False
  | funStmt, s => match s with | .letFun .. => True | _ => False
  | _, _ => True

/-- The row of terminals of a tree. -/
def yield : ∀ p : Nonterminal, p.Tree → List Terminal
  | type, t | typeBase, t => Ty.yield t
  | params, ps | paramList, ps => Params.yield ps
  | param, p => Param.yield p
  | expr, e | condition, e | array, e | closure, e => Expr.yield e
  | exprList, es => Exprs.yield es
  | indices, es => Indices.yield es
  | addExpr, a => AddExpr.yield a
  | term, t => Term.yield t
  | factor, f | idFactor, f => Factor.yield f
  | arguments, as => .mark .openParen :: Args.yield as ++ [.mark .closeParen]
  | argList, as => Args.yield as
  | arg, a => Arg.yield a
  | stmts, ss => Stmts.yield ss
  | stmt, s => match s with | none => [] | some s => Stmt.yield s
  | ifStmt, s | whileStmt, s | idStmt, s | returnStmt, s | letStmt, s | funStmt, s => Stmt.yield s

/-- Tokens form a phrase with the given tree. -/
def Derives (p : Nonterminal) (tree : p.Tree) (tokens : List Token) : Prop :=
  p.Makes tree ∧ Reads (p.yield tree) tokens

/-! ## Every phrase is made of some tokens -/

/-- A small tree of each phrase. -/
def sample : ∀ p : Nonterminal, p.Tree
  | type | typeBase => .int
  | params => []
  | paramList => [⟨"x", .int, none⟩]
  | param => ⟨"x", .int, none⟩
  | expr | condition => (Factor.int 0).toExpr
  | array => .array []
  | exprList => [(Factor.int 0).toExpr]
  | indices => []
  | closure => .closure [] .int []
  | addExpr => .single (.single (.int 0))
  | term => .single (.int 0)
  | factor => .int 0
  | idFactor => .var "x" []
  | arguments => []
  | argList => [⟨"x", (Factor.int 0).toExpr⟩]
  | arg => ⟨"x", (Factor.int 0).toExpr⟩
  | stmts => []
  | stmt => none
  | ifStmt => .ifThen (.single (.single (.single (.int 0))) "<" (.single (.single (.int 0)))) []
  | whileStmt => .loop (.single (.single (.single (.int 0))) "<" (.single (.single (.int 0)))) []
  | idStmt => .call "x" []
  | returnStmt => .ret (Factor.int 0).toExpr
  | letStmt => .letVar "x" .int (Factor.int 0).toExpr
  | funStmt => .letFun "x" [] .int []

/-- **Every phrase has an instance**, of its sample tree. -/
theorem exists_derives (p : Nonterminal) : ∃ tree ts, p.Derives tree ts := by
  have hmakes : p.Makes p.sample := by
    cases p
    case typeBase => rfl
    case paramList | exprList | argList => exact List.cons_ne_nil _ _
    all_goals trivial
  have heasy : (p.yield p.sample).all Terminal.isEasy = true := by
    cases p <;> rfl
  obtain ⟨ts, hts⟩ := exists_reads _ heasy
  exact ⟨p.sample, ts, hmakes, hts⟩

end Nonterminal

end FrontEnd
