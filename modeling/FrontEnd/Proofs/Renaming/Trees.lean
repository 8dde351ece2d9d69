import FrontEnd.Check.Scope
import FrontEnd.Proofs.Agreement.Equivalence

/-!
# Renamed trees

`Ty.rename`, `Expr.rename`, `Stmt.rename` and `Program.rename` replace every identifier of a tree by
its image: the names of variables, functions and parameters, where they are declared, where they are
used and where a type lists them, also in places that no check looks at. The names of primitive
types are no identifiers and stay as they are, and so do operators and literals.

- `Params.rename_eq_map`, `Args.rename_eq_map`: lists are renamed element by element.
- `findParam?_rename`, `Scope.find?_rename`: what a name leads to is found under its image, if
  different names have different images.
- `Ty.agrees_rename`: then types agree under their new names as they did under the old ones.
-/

namespace FrontEnd

/-! ## Trees -/

mutual

/-- A type with other names for the parameters in it. The name of a primitive type stays. -/
def Ty.rename (r : String → String) : Ty → Ty
  | .prim name depth => .prim name depth
  | .fn params result depth => .fn (Params.rename r params) (result.rename r) depth

/-- Parameters with other names, types and defaults included. -/
def Params.rename (r : String → String) : List Param → List Param
  | [] => []
  | ⟨name, type, default?⟩ :: params =>
    ⟨r name, type.rename r, Default.rename r default?⟩ :: Params.rename r params

def Default.rename (r : String → String) : Option Expr → Option Expr
  | none => none
  | some value => some (value.rename r)

/-- An expression in which every identifier has its image. -/
def Expr.rename (r : String → String) : Expr → Expr
  | .cond condition => .cond (condition.rename r)
  | .add sum => .add (sum.rename r)
  | .array entries => .array (Exprs.rename r entries)
  | .closure params result body =>
    .closure (Params.rename r params) (result.rename r) (Stmts.rename r body)

def Exprs.rename (r : String → String) : List Expr → List Expr
  | [] => []
  | e :: es => e.rename r :: Exprs.rename r es

def Condition.rename (r : String → String) : Condition → Condition
  | .single left relop right => .single (left.rename r) relop (right.rename r)
  | .chain left relop right boolop next =>
    .chain (left.rename r) relop (right.rename r) boolop (next.rename r)

def AddExpr.rename (r : String → String) : AddExpr → AddExpr
  | .single term => .single (term.rename r)
  | .chain term addop next => .chain (term.rename r) addop (next.rename r)

def Term.rename (r : String → String) : Term → Term
  | .single factor => .single (factor.rename r)
  | .chain factor mulop next => .chain (factor.rename r) mulop (next.rename r)

/-- A factor in which every identifier has its image, also those in indices. -/
def Factor.rename (r : String → String) : Factor → Factor
  | .var name indices => .var (r name) (Exprs.rename r indices)
  | .call callee args => .call (r callee) (Args.rename r args)
  | .int value => .int value
  | .float value => .float value
  | .paren inner => .paren (inner.rename r)

def Args.rename (r : String → String) : List Arg → List Arg
  | [] => []
  | ⟨name, value⟩ :: args => ⟨r name, value.rename r⟩ :: Args.rename r args

/-- A statement in which every identifier has its image, what it declares included. -/
def Stmt.rename (r : String → String) : Stmt → Stmt
  | .ifThen condition body => .ifThen (condition.rename r) (Stmts.rename r body)
  | .ifElse condition body otherwise =>
    .ifElse (condition.rename r) (Stmts.rename r body) (Stmts.rename r otherwise)
  | .loop condition body => .loop (condition.rename r) (Stmts.rename r body)
  | .assign name value => .assign (r name) (value.rename r)
  | .ret value => .ret (value.rename r)
  | .letVar name type value => .letVar (r name) (type.rename r) (value.rename r)
  | .letFun name params result body =>
    .letFun (r name) (Params.rename r params) (result.rename r) (Stmts.rename r body)
  | .call callee args => .call (r callee) (Args.rename r args)

def Stmts.rename (r : String → String) : List Stmt → List Stmt
  | [] => []
  | s :: rest => s.rename r :: Stmts.rename r rest

end

/-- A program in which every identifier has its image. -/
def Program.rename (r : String → String) (program : Program) : Program :=
  ⟨Stmts.rename r program.body⟩

/-- A single parameter with another name. -/
def Param.rename (r : String → String) (p : Param) : Param :=
  ⟨r p.name, p.type.rename r, Default.rename r p.default?⟩

/-- A single argument with another name. -/
def Arg.rename (r : String → String) (arg : Arg) : Arg := ⟨r arg.name, arg.value.rename r⟩

variable {r : String → String}

/-! ## Lists -/

/-- Images are searched as their origins, if the test on images is one on origins. -/
theorem find?_map_eq {α β : Type} {f : α → β} {p : β → Bool} {q : α → Bool}
    (h : ∀ a, p (f a) = q a) (xs : List α) : (xs.map f).find? p = (xs.find? q).map f := by
  have hpq : p ∘ f = q := funext h
  rw [List.find?_map, hpq]

/-- Parameters are renamed one by one. -/
theorem Params.rename_eq_map (params : List Param) :
    Params.rename r params = params.map (Param.rename r) := by
  induction params with
  | nil => rfl
  | cons p params ih =>
    obtain ⟨name, type, default?⟩ := p
    rw [Params.rename, ih, List.map_cons, Param.rename]

/-- Arguments are renamed one by one. -/
theorem Args.rename_eq_map (args : List Arg) : Args.rename r args = args.map (Arg.rename r) := by
  induction args with
  | nil => rfl
  | cons arg args ih =>
    obtain ⟨name, value⟩ := arg
    rw [Args.rename, ih, List.map_cons, Arg.rename]

/-- Renaming keeps the number of expressions, and so the number of indices. -/
theorem Exprs.length_rename (es : List Expr) : (Exprs.rename r es).length = es.length := by
  induction es with
  | nil => rfl
  | cons e es ih => rw [Exprs.rename, List.length_cons, List.length_cons, ih]

/-- Renaming neither makes nor takes a default. -/
theorem Default.isNone_rename (default? : Option Expr) :
    (Default.rename r default?).isNone = default?.isNone := by
  cases default? <;> rfl

/-- Different names stay different, if different names have different images. -/
theorem beq_rename (hr : Function.Injective r) (a b : String) : (r a == r b) = (a == b) := by
  rw [Bool.eq_iff_iff, beq_iff_eq, beq_iff_eq]
  exact hr.eq_iff

/-- The image of a name leads to the image of the parameter that the name led to. -/
theorem findParam?_rename (hr : Function.Injective r) (params : List Param) (name : String) :
    findParam? (Params.rename r params) (r name) =
      (findParam? params name).map (Param.rename r) := by
  rw [findParam?, findParam?, Params.rename_eq_map]
  exact find?_map_eq (fun p => beq_rename hr p.name name) params

/-! ## Types -/

namespace Ty

theorem depth_rename (t : Ty) : (t.rename r).depth = t.depth := by
  cases t <;> rfl

theorem isArithmetic_rename (t : Ty) : (t.rename r).isArithmetic = t.isArithmetic := by
  cases t <;> rfl

theorem withDepth_rename (t : Ty) (d : Nat) :
    (t.rename r).withDepth d = (t.withDepth d).rename r := by
  cases t <;> rfl

/-- A renamed type is a function type if it was one, with renamed parts. -/
theorem asFunction?_rename (t : Ty) :
    (t.rename r).asFunction? =
      t.asFunction?.map fun (params, result) => (Params.rename r params, result.rename r) := by
  rcases t with ⟨name, depth⟩ | ⟨params, result, _ | depth⟩ <;> rfl

end Ty

/-- Types agree under their new names exactly if they agreed under the old ones. -/
theorem Ty.agrees_rename (hr : Function.Injective r) (t u : Ty) :
    (t.rename r).agrees (u.rename r) = t.agrees u := by
  induction t using Ty.induction generalizing u with
  | prim a d =>
    cases u with
    | prim b e => rfl
    | fn qs s e => rw [rename, rename, agrees_prim_fn, agrees_prim_fn]
  | fn ps q d hparams hresult =>
    cases u with
    | prim b e => rw [rename, rename, agrees_fn_prim, agrees_fn_prim]
    | fn qs s e =>
      have hparam : ∀ p ∈ ps, ∀ q, (p.rename r).agrees (q.rename r) = p.agrees q := by
        intro p hp q
        rw [Param.agrees, Param.agrees, Param.rename, Param.rename, beq_rename hr,
          hparams p hp q.type]
      -- Every comparison of the scans has the same outcome, so it is all the same who covers whom.
      have hagree : Params.agree (Params.rename r ps) (Params.rename r qs) =
          Params.agree ps qs := by
        rw [Bool.eq_iff_iff, Params.agree_iff_covers, Params.agree_iff_covers,
          Params.rename_eq_map, Params.rename_eq_map, Covers.map_iff]
        constructor
        · exact fun h => h.imp fun p hp q _ hpq => (hparam p hp q).symm.trans hpq
        · exact fun h => h.imp fun p hp q _ hpq => (hparam p hp q).trans hpq
      rw [rename, rename, agrees_fn_fn, agrees_fn_fn, hresult s, hagree]

/-! ## Scopes -/

/-- A declaration under its new name. -/
def renameDeclaration (r : String → String) (declaration : String × Ty) : String × Ty :=
  (r declaration.1, declaration.2.rename r)

/-- A scope in which every name and type has its image. -/
def Scope.rename (r : String → String) (scope : Scope) : Scope := scope.map (renameDeclaration r)

/-- The image of a name is declared with the image of the type of the name. -/
theorem Scope.find?_rename (hr : Function.Injective r) (scope : Scope) (name : String) :
    (scope.rename r).find? (r name) = (scope.find? name).map (Ty.rename r) := by
  induction scope with
  | nil => rfl
  | cons declaration scope ih =>
    obtain ⟨declared, type⟩ := declaration
    rw [Scope.rename, List.map_cons, renameDeclaration, find?_cons, find?_cons]
    by_cases hname : name = declared
    · rw [if_pos hname, if_pos (congrArg r hname)]
      rfl
    · rw [if_neg hname, if_neg (hr.ne hname)]
      exact ih

end FrontEnd
