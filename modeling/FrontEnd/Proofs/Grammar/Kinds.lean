import FrontEnd.Proofs.Grammar.Yield

/-!
# Kinds in a yield

No tree demands a token of a kind that the language does not know.
-/

namespace FrontEnd

/-- The kinds of the tokens that a row admits. -/
def rowKinds (row : List Terminal) : List TokenKind := row.map Terminal.kind

@[simp] theorem rowKinds_nil : rowKinds [] = [] := rfl

@[simp] theorem rowKinds_cons (a : Terminal) (row : List Terminal) :
    rowKinds (a :: row) = a.kind :: rowKinds row := rfl

@[simp] theorem rowKinds_append (as bs : List Terminal) :
    rowKinds (as ++ bs) = rowKinds as ++ rowKinds bs := List.map_append

/-- Array levels put their brackets around the kinds of what stands in them. -/
@[simp] theorem rowKinds_levels (depth : Nat) (row : List Terminal) :
    rowKinds (levels depth row) =
      List.replicate depth .openBracket ++ rowKinds row ++
        List.replicate depth .closeBracket := by
  simp [levels, rowKinds, Terminal.kind]

mutual

/-- No type demands a token of an unknown kind. The induction goes through the defaults in function
types, so it is one over all trees at once. -/
theorem Ty.unknown_notMem : ∀ t : Ty, .unknown ∉ rowKinds t.yield
  | .prim name depth => by simp [Ty.yield, Terminal.kind]
  | .fn params result depth => by
    simp [Ty.yield, Terminal.kind, Params.unknown_notMem params, Ty.unknown_notMem result]

theorem Param.unknown_notMem : ∀ p : Param, .unknown ∉ rowKinds p.yield
  | ⟨name, type, none⟩ => by simp [Param.yield, Terminal.kind, Ty.unknown_notMem type]
  | ⟨name, type, some value⟩ => by
    simp [Param.yield, Terminal.kind, Ty.unknown_notMem type, Expr.unknown_notMem value]

/-- Parameters demand none: the commas between them are marks of the language. -/
theorem Params.unknown_notMem : ∀ ps : List Param, .unknown ∉ rowKinds (Params.yield ps)
  | [] => by simp [Params.yield]
  | [p] => by simp [Params.yield, Param.unknown_notMem p]
  | p :: q :: ps => by
    simp [Params.yield, Terminal.kind, Param.unknown_notMem p, Params.unknown_notMem (q :: ps)]

/-- No expression demands one, whatever its form. -/
theorem Expr.unknown_notMem : ∀ e : Expr, .unknown ∉ rowKinds e.yield
  | .cond condition => by simp [Expr.yield, Condition.unknown_notMem condition]
  | .add sum => by simp [Expr.yield, AddExpr.unknown_notMem sum]
  | .array entries => by simp [Expr.yield, Terminal.kind, Exprs.unknown_notMem entries]
  | .closure params result body => by
    simp [Expr.yield, Terminal.kind, Params.unknown_notMem params, Ty.unknown_notMem result,
      Stmts.unknown_notMem body]

theorem Exprs.unknown_notMem : ∀ es : List Expr, .unknown ∉ rowKinds (Exprs.yield es)
  | [] => by simp [Exprs.yield]
  | [e] => by simp [Exprs.yield, Expr.unknown_notMem e]
  | e :: f :: es => by
    simp [Exprs.yield, Terminal.kind, Expr.unknown_notMem e, Exprs.unknown_notMem (f :: es)]

theorem Condition.unknown_notMem : ∀ c : Condition, .unknown ∉ rowKinds c.yield
  | .single left relop right => by
    simp [Condition.yield, Terminal.kind, AddExpr.unknown_notMem left,
      AddExpr.unknown_notMem right]
  | .chain left relop right boolop next => by
    simp [Condition.yield, Terminal.kind, AddExpr.unknown_notMem left,
      AddExpr.unknown_notMem right, Condition.unknown_notMem next]

theorem AddExpr.unknown_notMem : ∀ a : AddExpr, .unknown ∉ rowKinds a.yield
  | .single term => by simp [AddExpr.yield, Term.unknown_notMem term]
  | .chain term addop next => by
    simp [AddExpr.yield, Terminal.kind, Term.unknown_notMem term, AddExpr.unknown_notMem next]

theorem Term.unknown_notMem : ∀ t : Term, .unknown ∉ rowKinds t.yield
  | .single factor => by simp [Term.yield, Factor.unknown_notMem factor]
  | .chain factor mulop next => by
    simp [Term.yield, Terminal.kind, Factor.unknown_notMem factor, Term.unknown_notMem next]

/-- The literals of a factor are numbers and floats, which are known kinds. -/
theorem Factor.unknown_notMem : ∀ f : Factor, .unknown ∉ rowKinds f.yield
  | .var name indices => by simp [Factor.yield, Terminal.kind, Indices.unknown_notMem indices]
  | .call callee args => by simp [Factor.yield, Terminal.kind, Args.unknown_notMem args]
  | .int value => by simp [Factor.yield, Terminal.kind]
  | .float value => by simp [Factor.yield, Terminal.kind]
  | .paren inner => by simp [Factor.yield, Terminal.kind, Expr.unknown_notMem inner]

/-- Each index adds a pair of brackets and nothing unknown. -/
theorem Indices.unknown_notMem : ∀ es : List Expr, .unknown ∉ rowKinds (Indices.yield es)
  | [] => by simp [Indices.yield]
  | e :: es => by
    simp [Indices.yield, Terminal.kind, Expr.unknown_notMem e, Indices.unknown_notMem es]

theorem Arg.unknown_notMem : ∀ a : Arg, .unknown ∉ rowKinds a.yield
  | ⟨name, value⟩ => by simp [Arg.yield, Terminal.kind, Expr.unknown_notMem value]

theorem Args.unknown_notMem : ∀ as : List Arg, .unknown ∉ rowKinds (Args.yield as)
  | [] => by simp [Args.yield]
  | [a] => by simp [Args.yield, Arg.unknown_notMem a]
  | a :: b :: as => by
    simp [Args.yield, Terminal.kind, Arg.unknown_notMem a, Args.unknown_notMem (b :: as)]

/-- No statement demands one: its keywords and marks are all reserved. -/
theorem Stmt.unknown_notMem : ∀ s : Stmt, .unknown ∉ rowKinds s.yield
  | .ifThen condition body => by
    simp [Stmt.yield, Terminal.kind, Condition.unknown_notMem condition,
      Stmts.unknown_notMem body]
  | .ifElse condition body otherwise => by
    simp [Stmt.yield, Terminal.kind, Condition.unknown_notMem condition,
      Stmts.unknown_notMem body, Stmts.unknown_notMem otherwise]
  | .loop condition body => by
    simp [Stmt.yield, Terminal.kind, Condition.unknown_notMem condition,
      Stmts.unknown_notMem body]
  | .assign name value => by simp [Stmt.yield, Terminal.kind, Expr.unknown_notMem value]
  | .ret value => by simp [Stmt.yield, Terminal.kind, Expr.unknown_notMem value]
  | .letVar name type value => by
    simp [Stmt.yield, Terminal.kind, Ty.unknown_notMem type, Expr.unknown_notMem value]
  | .letFun name params result body => by
    simp [Stmt.yield, Terminal.kind, Params.unknown_notMem params, Ty.unknown_notMem result,
      Stmts.unknown_notMem body]
  | .call callee args => by simp [Stmt.yield, Terminal.kind, Args.unknown_notMem args]

/-- So the yield of a whole program admits no token that the scan did not recognise. -/
theorem Stmts.unknown_notMem : ∀ ss : List Stmt, .unknown ∉ rowKinds (Stmts.yield ss)
  | [] => by simp [Stmts.yield]
  | s :: rest => by simp [Stmts.yield, Stmt.unknown_notMem s, Stmts.unknown_notMem rest]

end

end FrontEnd
