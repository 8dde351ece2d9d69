import FrontEnd.Proofs.Scoping.Lexical
import Mathlib.Data.Finset.SDiff
import Mathlib.Data.Finset.Union

/-!
# Names and returns in a tree

What a tree says about names, read off the tree alone, with neither scopes nor types.

- `Naming`: the free names of a tree, the names that one of its blocks declares twice, and whether
  it returns outside every body.
- `Expr.naming`, `Stmts.naming`: the same for trees, by recursion.
- `Program.naming`: for a program, whose outermost block also has the built-in functions.

Index expressions, the defaults of declared functions, and what stands in types do not count: they
are never checked.
-/

namespace FrontEnd

/-- The names that a list holds more than once. -/
def repeated (names : List String) : Finset String :=
  names.toFinset.filter fun name => 1 < names.count name

/-- A name is repeated if it occurs more than once. -/
@[simp] theorem mem_repeated {names : List String} {name : String} :
    name ∈ repeated names ↔ 1 < names.count name := by
  rw [repeated, Finset.mem_filter, List.mem_toFinset]
  refine ⟨And.right, fun h => ⟨?_, h⟩⟩
  exact List.count_pos_iff.1 (Nat.zero_lt_of_lt h)

/-- No name is repeated exactly if all are different. -/
theorem repeated_eq_empty_iff {names : List String} : repeated names = ∅ ↔ names.Nodup := by
  rw [Finset.eq_empty_iff_forall_notMem, List.nodup_iff_count_le_one]
  simp only [mem_repeated, Nat.not_lt]

theorem repeated_perm {names others : List String} (h : names.Perm others) :
    repeated names = repeated others := by
  ext name
  rw [mem_repeated, mem_repeated, h.count_eq]

/-- More names repeat no less. -/
theorem repeated_mono {names others : List String} (h : names.Sublist others) :
    repeated names ⊆ repeated others := by
  intro name hname
  rw [mem_repeated] at hname ⊢
  exact Nat.lt_of_lt_of_le hname (h.count_le name)

/-- What a tree says about names: those it uses without binding them, those that a block inside it
declares twice, and whether it returns outside the bodies inside it. -/
structure Naming where
  free : Finset String
  doubled : Finset String
  returns : Bool

namespace Naming

/-- Nothing is said about any name. -/
def silent : Naming := ⟨∅, ∅, false⟩

/-- One name is used. -/
def use (name : String) : Naming := ⟨{name}, ∅, false⟩

/-- A return. -/
def ret : Naming := ⟨∅, ∅, true⟩

/-- What two trees say. -/
def join (a b : Naming) : Naming := ⟨a.free ∪ b.free, a.doubled ∪ b.doubled, a.returns || b.returns⟩

/-- What is said where some names are declared. -/
def behind (declared : List String) (n : Naming) : Naming :=
  { n with free := n.free \ declared.toFinset }

/-- What is said in a block that declares some names. -/
def block (declared : List String) (n : Naming) : Naming :=
  { n with doubled := n.doubled ∪ repeated declared }

/-- What is said in a body: its block has the parameters too, and nothing in it is a return outside
a body. -/
def body (params declared : List String) (n : Naming) : Naming :=
  { (n.behind params).block (params ++ declared) with returns := false }

end Naming

/-- The name that a statement declares in its block, if it declares one. -/
def Stmt.declared (s : Stmt) : List String := s.declaration?.toList.map Prod.fst

/-- The names that statements declare in their block. -/
def Stmts.declared (body : List Stmt) : List String := (Stmts.declarations body).map Prod.fst

/-- What statements declare is put together in order. -/
theorem Stmts.declared_cons (s : Stmt) (rest : List Stmt) :
    declared (s :: rest) = s.declared ++ declared rest := by
  rw [declared, declarations_cons, List.map_append, ← declared, ← Stmt.declared]

mutual

/-- What an expression names. Parameters of a closure are declared in its body, and defaults stand
in front of them. -/
def Expr.naming : Expr → Naming
  | .cond condition => condition.naming
  | .add sum => sum.naming
  | .array entries => Exprs.naming entries
  | .closure params _ body =>
    (Params.naming params).join
      ((Stmts.naming body).body (params.map Param.name) (Stmts.declared body))

def Exprs.naming : List Expr → Naming
  | [] => .silent
  | e :: es => e.naming.join (Exprs.naming es)

/-- The defaults of a closure, which are outside of its body. -/
def Params.naming : List Param → Naming
  | [] => .silent
  | ⟨_, _, default?⟩ :: params => (Default.naming default?).join (Params.naming params)

def Default.naming : Option Expr → Naming
  | none => .silent
  | some value => value.naming

/-- What a condition names, on both sides of every comparison. -/
def Condition.naming : Condition → Naming
  | .single left _ right => left.naming.join right.naming
  | .chain left _ right _ next => left.naming.join (right.naming.join next.naming)

def AddExpr.naming : AddExpr → Naming
  | .single term => term.naming
  | .chain term _ next => term.naming.join next.naming

def Term.naming : Term → Naming
  | .single factor => factor.naming
  | .chain factor _ next => factor.naming.join next.naming

/-- What a factor names: its variable or callee. Indices are not checked, so what they name does not
count. -/
def Factor.naming : Factor → Naming
  | .var name _ => .use name
  | .call callee args => (Naming.use callee).join (Args.naming args)
  | .int _ | .float _ => .silent
  | .paren inner => inner.naming

/-- What arguments name in their values. -/
def Args.naming : List Arg → Naming
  | [] => .silent
  | ⟨_, value⟩ :: args => value.naming.join (Args.naming args)

/-- A statement. What it declares is not bound in the statement itself. -/
def Stmt.naming : Stmt → Naming
  | .ifThen condition body | .loop condition body =>
    condition.naming.join ((Stmts.naming body).block (Stmts.declared body))
  | .ifElse condition body otherwise =>
    condition.naming.join
      (((Stmts.naming body).block (Stmts.declared body)).join
        ((Stmts.naming otherwise).block (Stmts.declared otherwise)))
  | .assign name value => (Naming.use name).join value.naming
  | .ret value => Naming.ret.join value.naming
  | .letVar _ _ value => value.naming
  | .letFun _ params _ body =>
    (Stmts.naming body).body (params.map Param.name) (Stmts.declared body)
  | .call callee args => (Naming.use callee).join (Args.naming args)

/-- Statements in turn. Their own block is left to what they stand in. -/
def Stmts.naming : List Stmt → Naming
  | [] => .silent
  | s :: rest => s.naming.join ((Stmts.naming rest).behind s.declared)

end

/-- The functions that every program may call. -/
def builtInNames : List String := ["print", "readInt", "readFloat", "readBool"]

/-- A whole program. The built-in functions are declared in its outermost block. -/
def Program.naming (program : Program) : Naming :=
  (Stmts.naming program.body).block (builtInNames ++ Stmts.declared program.body)

end FrontEnd
