import FrontEnd.Syntax.Type

/-!
# Equality of trees

`Program.same` compares programs node by node. Types inside a tree count as equal when they agree,
parameters when their names and types do, whatever their defaults, and literals when they are equal
as numbers. Like agreement of types it is no equivalence: a NaN differs from itself, and the
wildcard equals every type.
-/

namespace FrontEnd

/-- Whether two lists of parameters agree place by place. -/
def Params.same : List Param → List Param → Bool
  | [], [] => true
  | p :: ps, q :: qs => p.agrees q && Params.same ps qs
  | _, _ => false

/-! ## Nodes

Nodes are the same if they are of one kind and their parts are the same. -/

mutual

/-- Whether two expressions are written alike, up to how their numbers are spelt. -/
def Expr.same : Expr → Expr → Bool
  | .cond c, .cond d => c.same d
  | .add a, .add b => a.same b
  | .array es, .array fs => Exprs.same es fs
  | .closure ps r body, .closure qs s other =>
    Params.same ps qs && r.agrees s && Stmts.same body other
  | _, _ => false

def Exprs.same : List Expr → List Expr → Bool
  | [], [] => true
  | e :: es, f :: fs => e.same f && Exprs.same es fs
  | _, _ => false

/-- Whether two conditions compare the same things with the same operators. -/
def Condition.same : Condition → Condition → Bool
  | .single l op r, .single l' op' r' => l.same l' && op == op' && r.same r'
  | .chain l op r join next, .chain l' op' r' join' next' =>
    l.same l' && op == op' && r.same r' && join == join' && next.same next'
  | _, _ => false

/-- Whether two sums have the same terms and operators in the same order. -/
def AddExpr.same : AddExpr → AddExpr → Bool
  | .single t, .single u => t.same u
  | .chain t op next, .chain u op' next' => t.same u && op == op' && next.same next'
  | _, _ => false

def Term.same : Term → Term → Bool
  | .single f, .single g => f.same g
  | .chain f op next, .chain g op' next' => f.same g && op == op' && next.same next'
  | _, _ => false

/-- Whether two factors are alike. Floats are compared as numbers. -/
def Factor.same : Factor → Factor → Bool
  | .var x es, .var y fs => x == y && Exprs.same es fs
  | .call f as, .call g bs => f == g && Args.same as bs
  | .int i, .int j => i == j
  | .float x, .float y => x.numEq y
  | .paren e, .paren f => e.same f
  | _, _ => false

/-- Whether two calls name and pass the same arguments in the same order. -/
def Args.same : List Arg → List Arg → Bool
  | [], [] => true
  | ⟨x, e⟩ :: as, b :: bs => x == b.name && e.same b.value && Args.same as bs
  | _, _ => false

/-- Whether two statements are of one form with the same parts. -/
def Stmt.same : Stmt → Stmt → Bool
  | .ifThen c body, .ifThen d body' => c.same d && Stmts.same body body'
  | .ifElse c body other, .ifElse d body' other' =>
    c.same d && Stmts.same body body' && Stmts.same other other'
  | .loop c body, .loop d body' => c.same d && Stmts.same body body'
  | .assign x e, .assign y f => x == y && e.same f
  | .ret e, .ret f => e.same f
  | .letVar x t e, .letVar y u f => x == y && t.agrees u && e.same f
  | .letFun x ps r body, .letFun y qs s body' =>
    x == y && Params.same ps qs && r.agrees s && Stmts.same body body'
  | .call f as, .call g bs => f == g && Args.same as bs
  | _, _ => false

def Stmts.same : List Stmt → List Stmt → Bool
  | [], [] => true
  | s :: ss, u :: us => s.same u && Stmts.same ss us
  | _, _ => false

end

/-- Whether two programs have the same statements. -/
def Program.same (p q : Program) : Bool := Stmts.same p.body q.body

end FrontEnd
