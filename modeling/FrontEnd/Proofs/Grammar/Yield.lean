import FrontEnd.Number.Decimal
import FrontEnd.Number.Integer
import FrontEnd.Syntax.Type
import FrontEnd.Token.Basic
import Mathlib.Data.List.Forall2

/-!
# Yields of trees

The grammar of the language, read off its trees: the *yield* of a tree is the row of terminals that
its leaves form from left to right. A `Terminal` says what has to stand in one place of a text, and
`Reads` that the tokens of a list meet the terminals of a row one for one.

- `Program.Yields`: a list of tokens is a yield of a program.
- `Reads`: a row of terminals is met by a list of tokens, place by place. It splits where the row
  splits (`reads_append`), which is all that later modules use of it.

Words and marks with a single meaning are told by their kind alone. Where the tree keeps the text of
a token (names, operators, primitive types), the text is part of the terminal. A number stands for
every numeral that is read as it.
-/

namespace FrontEnd

/-! ## Terminals -/

/-- What has to stand in one place of a yield. -/
inductive Terminal where
  /-- A word or mark that means one thing only. -/
  | mark (kind : TokenKind)
  /-- A token of an open class, with its text. -/
  | word (kind : TokenKind) (text : String)
  /-- An integer numeral of a value. -/
  | int (value : Int)
  /-- A numeral with a fraction, of a value. -/
  | float (value : Binary64)

namespace Terminal

/-- The kind of the tokens that a terminal admits. -/
def kind : Terminal → TokenKind
  | mark k => k
  | word k _ => k
  | int _ => .number
  | float _ => .float

/-- Whether a token may stand for a terminal. -/
def Matches : Terminal → Token → Prop
  | mark k, t => t.kind = k
  | word k text, t => t.kind = k ∧ t.value = text
  | int i, t => t.kind = .number ∧ readInt64? t.value = some i
  | float x, t => t.kind = .float ∧ readBinary64? t.value = some x

theorem Matches.kind_eq : ∀ {a : Terminal} {t : Token}, a.Matches t → t.kind = a.kind
  | mark _, _, h => h
  | word .., _, h => h.1
  | int _, _, h => h.1
  | float _, _, h => h.1

end Terminal

/-- A list of tokens meets a row of terminals, place by place. -/
def Reads (row : List Terminal) (tokens : List Token) : Prop :=
  List.Forall₂ Terminal.Matches row tokens

@[simp] theorem reads_nil {ts : List Token} : Reads [] ts ↔ ts = [] := by
  simp [Reads]

@[simp] theorem reads_cons {a : Terminal} {as : List Terminal} {ts : List Token} :
    Reads (a :: as) ts ↔ ∃ t us, ts = t :: us ∧ a.Matches t ∧ Reads as us := by
  rw [Reads, List.forall₂_cons_left_iff]
  constructor
  · rintro ⟨t, us, ht, hus, rfl⟩
    exact ⟨t, us, rfl, ht, hus⟩
  · rintro ⟨t, us, rfl, ht, hus⟩
    exact ⟨t, us, ht, hus, rfl⟩

theorem Reads.cons {a : Terminal} {as : List Terminal} {t : Token} {ts : List Token}
    (ht : a.Matches t) (hts : Reads as ts) : Reads (a :: as) (t :: ts) :=
  List.Forall₂.cons ht hts

theorem Reads.append {as bs : List Terminal} {ts us : List Token}
    (hts : Reads as ts) (hus : Reads bs us) : Reads (as ++ bs) (ts ++ us) :=
  List.rel_append hts hus

/-- Tokens read as two rows together are those of the one followed by those of the other. -/
@[simp] theorem reads_append {as bs : List Terminal} {ts : List Token} :
    Reads (as ++ bs) ts ↔ ∃ us vs, ts = us ++ vs ∧ Reads as us ∧ Reads bs vs := by
  constructor
  · intro h
    induction as generalizing ts with
    | nil => exact ⟨[], ts, rfl, reads_nil.2 rfl, h⟩
    | cons a as ih =>
      obtain ⟨t, rest, rfl, ht, hrest⟩ := reads_cons.1 h
      obtain ⟨us, vs, rfl, hus, hvs⟩ := ih hrest
      exact ⟨t :: us, vs, rfl, hus.cons ht, hvs⟩
  · rintro ⟨us, vs, rfl, hus, hvs⟩
    exact hus.append hvs

/-- Only the kinds of the tokens decide which row of kinds they form. -/
theorem Reads.kinds {as : List Terminal} {ts : List Token} (h : Reads as ts) :
    ts.map Token.kind = as.map Terminal.kind := by
  induction h with
  | nil => rfl
  | cons ht _ ih => rw [List.map_cons, List.map_cons, ht.kind_eq, ih]

/-- Every place of a row is taken by one of the tokens that it reads. -/
theorem Reads.exists_of_mem {row : List Terminal} {ts : List Token} {a : Terminal}
    (h : Reads row ts) (ha : a ∈ row) : ∃ t ∈ ts, a.Matches t := by
  induction h with
  | nil => cases ha
  | @cons b t row ts hb _ ih =>
    rcases List.mem_cons.1 ha with rfl | ha
    · exact ⟨t, List.mem_cons_self, hb⟩
    · obtain ⟨u, hu, hmatches⟩ := ih ha
      exact ⟨u, List.mem_cons_of_mem t hu, hmatches⟩

/-! ## Yields

One clause for each form of each tree, as the grammar writes it. -/

/-- A row between as many opening as closing brackets. -/
def levels (depth : Nat) (row : List Terminal) : List Terminal :=
  List.replicate depth (.mark .openBracket) ++ row ++ List.replicate depth (.mark .closeBracket)

mutual

/-- A type base under brackets: a primitive type, or `( params ) : type`. -/
def Ty.yield : Ty → List Terminal
  | .prim name depth => levels depth [.word .primitive name]
  | .fn params result depth =>
    levels depth (.mark .openParen :: Params.yield params ++
      .mark .closeParen :: .mark .colon :: result.yield)

/-- `id : type`, and `<- expr` if there is a default. -/
def Param.yield : Param → List Terminal
  | ⟨name, type, none⟩ => .word .identifier name :: .mark .colon :: type.yield
  | ⟨name, type, some value⟩ =>
    .word .identifier name :: .mark .colon :: type.yield ++ .mark .assign :: value.yield

/-- Parameters with commas between them. -/
def Params.yield : List Param → List Terminal
  | [] => []
  | [p] => p.yield
  | p :: q :: ps => p.yield ++ .mark .comma :: Params.yield (q :: ps)

/-- A condition, a sum, `[ exprs ]`, or `( params ) : type <- { stmts }`. -/
def Expr.yield : Expr → List Terminal
  | .cond condition => condition.yield
  | .add sum => sum.yield
  | .array entries => .mark .openBracket :: Exprs.yield entries ++ [.mark .closeBracket]
  | .closure params result body =>
    .mark .openParen :: Params.yield params ++
      .mark .closeParen :: .mark .colon :: result.yield ++
      .mark .assign :: .mark .openCurly :: Stmts.yield body ++ [.mark .closeCurly]

/-- Expressions with commas between them. -/
def Exprs.yield : List Expr → List Terminal
  | [] => []
  | [e] => e.yield
  | e :: f :: es => e.yield ++ .mark .comma :: Exprs.yield (f :: es)

/-- `sum relop sum`, and `boolop condition` if there is more. -/
def Condition.yield : Condition → List Terminal
  | .single left relop right => left.yield ++ .word .relOp relop :: right.yield
  | .chain left relop right boolop next =>
    left.yield ++ .word .relOp relop :: right.yield ++ .word .boolOp boolop :: next.yield

/-- `term`, or `term addop sum`. -/
def AddExpr.yield : AddExpr → List Terminal
  | .single term => term.yield
  | .chain term addop next => term.yield ++ .word .addOp addop :: next.yield

/-- `factor`, or `factor mulop term`. -/
def Term.yield : Term → List Terminal
  | .single factor => factor.yield
  | .chain factor mulop next => factor.yield ++ .word .mulOp mulop :: next.yield

/-- `id indices`, `id ( args )`, a numeral, or `( expr )`. -/
def Factor.yield : Factor → List Terminal
  | .var name indices => .word .identifier name :: Indices.yield indices
  | .call callee args =>
    .word .identifier callee :: .mark .openParen :: Args.yield args ++ [.mark .closeParen]
  | .int value => [.int value]
  | .float value => [.float value]
  | .paren inner => .mark .openParen :: inner.yield ++ [.mark .closeParen]

/-- Each index in brackets of its own. -/
def Indices.yield : List Expr → List Terminal
  | [] => []
  | e :: es => .mark .openBracket :: e.yield ++ .mark .closeBracket :: Indices.yield es

/-- `id : expr`. -/
def Arg.yield : Arg → List Terminal
  | ⟨name, value⟩ => .word .identifier name :: .mark .colon :: value.yield

/-- Arguments with commas between them. -/
def Args.yield : List Arg → List Terminal
  | [] => []
  | [a] => a.yield
  | a :: b :: as => a.yield ++ .mark .comma :: Args.yield (b :: as)

/-- Statements start with their keyword or a name, and simple ones end with a semicolon. -/
def Stmt.yield : Stmt → List Terminal
  | .ifThen condition body =>
    .mark .kwIf :: condition.yield ++ .mark .kwThen :: Stmts.yield body ++ [.mark .kwFi]
  | .ifElse condition body otherwise =>
    .mark .kwIf :: condition.yield ++ .mark .kwThen :: Stmts.yield body ++
      .mark .kwElse :: Stmts.yield otherwise ++ [.mark .kwFi]
  | .loop condition body =>
    .mark .kwWhile :: condition.yield ++ .mark .kwDo :: Stmts.yield body ++ [.mark .kwDone]
  | .assign name value =>
    .word .identifier name :: .mark .assign :: value.yield ++ [.mark .semicolon]
  | .ret value => .mark .kwReturn :: value.yield ++ [.mark .semicolon]
  | .letVar name type value =>
    .mark .kwLet :: .word .identifier name :: .mark .colon :: type.yield ++
      .mark .assign :: value.yield ++ [.mark .semicolon]
  | .letFun name params result body =>
    .mark .kwFun :: .word .identifier name :: .mark .openParen :: Params.yield params ++
      .mark .closeParen :: .mark .colon :: result.yield ++
      .mark .assign :: .mark .kwBegin :: Stmts.yield body ++ [.mark .kwEnd]
  | .call callee args =>
    .word .identifier callee :: .mark .openParen :: Args.yield args ++
      [.mark .closeParen, .mark .semicolon]

/-- Statements one after the other. -/
def Stmts.yield : List Stmt → List Terminal
  | [] => []
  | s :: rest => s.yield ++ Stmts.yield rest

end

/-- A list of tokens is a yield of a program. -/
def Program.Yields (program : Program) (tokens : List Token) : Prop :=
  Reads (Stmts.yield program.body) tokens

end FrontEnd
