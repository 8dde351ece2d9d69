import FrontEnd.Proofs.Naming.Occurrences
import FrontEnd.Proofs.Renaming.Trees
import FrontEnd.Proofs.Scoping.Refinement
import Mathlib.Logic.Equiv.Basic

/-!
# Renaming does not change the verdict

A program and the same program under other names are checked side by side. No rule looks at a name
except to compare it with another one, so if the map of names is injective both checks take the same
steps: they answer the same types up to names, or they fail at the same place for the same reason.

- `Fault.Renamed`: the same reason to reject a program, about renamed names and types.
- `RenamedOutcome`: the same answer under the new names, or the same fault.
- `Typing.demand_rename` and so on: the rules of typing; `Env.lookup_rename` and so on: the
  surroundings.
- `Expr.typeIn_rename`, `Stmt.checkIn_rename`: the lexical rules on renamed trees.
- `Program.check_rename`: a program keeps its verdict under every injective map of names that leaves
  the built-in functions and their parameter alone.
-/

namespace FrontEnd

/-! ## Outcomes -/

/-- Faults of one kind, in which names stand for their images and types for renamed types. -/
inductive Fault.Renamed (r : String → String) : Fault → Fault → Prop
  | alreadyDeclared (name : String) :
      Fault.Renamed r (.alreadyDeclared name) (.alreadyDeclared (r name))
  | notDeclared (name : String) : Fault.Renamed r (.notDeclared name) (.notDeclared (r name))
  | duplicateParameter (name : String) :
      Fault.Renamed r (.duplicateParameter name) (.duplicateParameter (r name))
  | typeMismatch (expected received : Ty) :
      Fault.Renamed r (.typeMismatch expected.text received.text)
        (.typeMismatch (expected.rename r).text (received.rename r).text)
  | argumentMismatch (name : String) (expected received : Ty) :
      Fault.Renamed r (.argumentMismatch name expected.text received.text)
        (.argumentMismatch (r name) (expected.rename r).text (received.rename r).text)
  | notArithmetic (type : Ty) :
      Fault.Renamed r (.notArithmetic type.text) (.notArithmetic (type.rename r).text)
  | notComparable (relop : String) (type : Ty) :
      Fault.Renamed r (.notComparable relop type.text) (.notComparable relop (type.rename r).text)
  | mixedEntries (first other : Ty) :
      Fault.Renamed r (.mixedEntries first.text other.text)
        (.mixedEntries (first.rename r).text (other.rename r).text)
  | tooManyIndices (name : String) (depth indices : Nat) :
      Fault.Renamed r (.tooManyIndices name depth indices) (.tooManyIndices (r name) depth indices)
  | notCallable (callee : String) (type : Ty) :
      Fault.Renamed r (.notCallable callee type.text)
        (.notCallable (r callee) (type.rename r).text)
  | returnOutsideFunction : Fault.Renamed r .returnOutsideFunction .returnOutsideFunction
  | unexpectedArgument (callee name : String) :
      Fault.Renamed r (.unexpectedArgument callee name) (.unexpectedArgument (r callee) (r name))
  | missingArgument (callee name : String) :
      Fault.Renamed r (.missingArgument callee name) (.missingArgument (r callee) (r name))

/-- A fault keeps its own name, whatever the names in it become. -/
theorem Fault.Renamed.name_eq {r : String → String} {fault fault' : Fault}
    (h : fault.Renamed r fault') : fault'.name = fault.name := by
  cases h <;> rfl

/-- Both results are answers, the second the first under `f`, or both are the same fault under other
names. -/
inductive RenamedOutcome (r : String → String) {α β : Type} (f : α → β) :
    Except Fault α → Except Fault β → Prop
  | ok (a : α) : RenamedOutcome r f (.ok a) (.ok (f a))
  | error {fault fault' : Fault} (h : fault.Renamed r fault') :
      RenamedOutcome r f (.error fault) (.error fault')

variable {r : String → String}

namespace RenamedOutcome

variable {α β γ δ : Type} {f : α → β} {x y : Except Fault α} {x' y' : Except Fault β}

/-- Rules in sequence have renamed outcomes if their parts do. -/
theorem bind {k : γ → δ} {g : α → Except Fault γ} {g' : β → Except Fault δ}
    (h : RenamedOutcome r f x x') (hg : ∀ a, RenamedOutcome r k (g a) (g' (f a))) :
    RenamedOutcome r k (x >>= g) (x' >>= g') := by
  cases h with
  | ok a => exact hg a
  | error h => exact .error h

/-- A choice by a condition that does not speak of names has a renamed outcome if both its ways
do. -/
theorem ite {p : Prop} [Decidable p] (h : RenamedOutcome r f x x')
    (h' : RenamedOutcome r f y y') :
    RenamedOutcome r f (if p then x else y) (if p then x' else y') := by
  split
  · exact h
  · exact h'

end RenamedOutcome

/-! ## The rules of typing -/

namespace Typing

/-- Whether a type is demanded in vain is a matter of agreement, which renaming keeps. -/
theorem demand_rename (hr : Function.Injective r) (t u : Ty) :
    RenamedOutcome r id (demand t u) (demand (t.rename r) (u.rename r)) := by
  rw [demand, demand, Ty.agrees_rename hr]
  exact .ite (.ok ()) (.error (.typeMismatch t u))

/-- Renaming keeps whether two operands may be joined. -/
theorem joinable_rename (hr : Function.Injective r) (t u : Ty) :
    RenamedOutcome r id (joinable t u) (joinable (t.rename r) (u.rename r)) := by
  rw [joinable, joinable, Ty.agrees_rename hr, Ty.isArithmetic_rename]
  exact .ite (.ite (.ok ()) (.error (.notArithmetic t))) (.error (.typeMismatch t u))

/-- Renaming keeps whether two sides may be compared. The operator is no identifier. -/
theorem comparable_rename (hr : Function.Injective r) (t : Ty) (relop : String) (u : Ty) :
    RenamedOutcome r id (comparable t relop u) (comparable (t.rename r) relop (u.rename r)) := by
  rw [comparable, comparable, Ty.agrees_rename hr, Ty.depth_rename]
  exact .ite (.ite (.error (.notComparable relop t)) (.ok ())) (.error (.typeMismatch t u))

/-- Entries agree with the first under their new names as they did under the old ones. -/
theorem array_rename (hr : Function.Injective r) (types : List Ty) :
    RenamedOutcome r (Ty.rename r) (array types) (array (types.map (Ty.rename r))) := by
  cases types with
  | nil => exact .ok (Ty.any 1)
  | cons first rest =>
    have hother : (rest.map (Ty.rename r)).find? (!(first.rename r).agrees ·) =
        (rest.find? (!first.agrees ·)).map (Ty.rename r) := by
      refine find?_map_eq (fun t => ?_) rest
      rw [Ty.agrees_rename hr]
    rw [List.map_cons, array_cons, array_cons, hother]
    cases rest.find? (!first.agrees ·) with
    | none =>
      show RenamedOutcome r _ (.ok _) (.ok _)
      rw [Ty.depth_rename, Ty.withDepth_rename]
      exact .ok _
    | some other => exact .error (.mixedEntries first other)

/-- Indices take levels away from a type without looking at the names in it. -/
theorem indexed_rename (name : String) (declared : Ty) (indices : Nat) :
    RenamedOutcome r (Ty.rename r) (indexed name declared indices)
      (indexed (r name) (declared.rename r) indices) := by
  rw [indexed, indexed, Ty.depth_rename, Ty.withDepth_rename]
  exact .ite (.ok _) (.error (.tooManyIndices name declared.depth indices))

/-- The first argument that names no parameter. -/
theorem find?_unexpected_rename (hr : Function.Injective r) (params : List Param)
    (args : List Arg) :
    (Args.rename r args).find?
        (fun arg => (findParam? (Params.rename r params) arg.name).isNone) =
      (args.find? fun arg => (findParam? params arg.name).isNone).map (Arg.rename r) := by
  rw [Args.rename_eq_map]
  refine find?_map_eq (fun arg => ?_) args
  rw [Arg.rename, findParam?_rename hr, Option.isNone_map]

/-- The first parameter that has neither a default nor an argument. -/
theorem find?_missing_rename (hr : Function.Injective r) (params : List Param) (args : List Arg) :
    (Params.rename r params).find?
        (fun p => p.default?.isNone && !(Args.rename r args).any (·.name == p.name)) =
      (params.find? fun p => p.default?.isNone && !args.any (·.name == p.name)).map
        (Param.rename r) := by
  have hnamed : ∀ name,
      (Args.rename r args).any (·.name == r name) = args.any (·.name == name) := by
    intro name
    have hname : ((fun arg : Arg => arg.name == r name) ∘ Arg.rename r) = (·.name == name) :=
      funext fun arg => beq_rename hr arg.name name
    rw [Args.rename_eq_map, List.any_map, hname]
  rw [Params.rename_eq_map]
  refine find?_map_eq (fun p => ?_) params
  rw [Param.rename, Default.isNone_rename, hnamed]

/-- What a call knows of its callee, under new names. -/
def renameSignature (r : String → String) (signature : List Param × Ty) : List Param × Ty :=
  (Params.rename r signature.1, signature.2.rename r)

/-- A call has a renamed signature, or blames the image of the argument that it blamed. -/
theorem signature_rename (hr : Function.Injective r) (callee : String) (declared : Ty)
    (args : List Arg) :
    RenamedOutcome r (renameSignature r) (signature callee declared args)
      (signature (r callee) (declared.rename r) (Args.rename r args)) := by
  rw [signature, signature, Ty.asFunction?_rename]
  cases declared.asFunction? with
  | none => exact .error (.notCallable callee declared)
  | some function =>
    obtain ⟨params, result⟩ := function
    simp only [Option.map_some, find?_unexpected_rename hr, find?_missing_rename hr]
    cases args.find? fun arg => (findParam? params arg.name).isNone with
    | some arg => exact .error (.unexpectedArgument callee arg.name)
    | none =>
      cases params.find? fun p => p.default?.isNone && !args.any (·.name == p.name) with
      | some param => exact .error (.missingArgument callee param.name)
      | none => exact .ok (params, result)

/-- An argument is found under the image of its name and held against the renamed type. -/
theorem argument_rename (hr : Function.Injective r) (params : List Param) (name : String)
    (received : Ty) :
    RenamedOutcome r id (argument params name received)
      (argument (Params.rename r params) (r name) (received.rename r)) := by
  rw [argument, argument, findParam?_rename hr]
  cases findParam? params name with
  | none => exact .ok ()
  | some param =>
    show RenamedOutcome r id (if _ then _ else _) (if _ then _ else _)
    rw [Param.rename, Ty.agrees_rename hr]
    exact .ite (.ok ()) (.error (.argumentMismatch name param.type received))

/-- A parameter repeats a name exactly if its image repeats one. -/
theorem newParam_rename (hr : Function.Injective r) (seen : List String) (name : String) :
    RenamedOutcome r id (newParam seen name) (newParam (seen.map r) (r name)) := by
  have hseen : (seen.map r).contains (r name) = seen.contains name := by
    rw [Bool.eq_iff_iff, List.contains_iff_mem, List.contains_iff_mem]
    exact List.mem_map_of_injective hr
  rw [newParam, newParam, hseen]
  exact .ite (.error (.duplicateParameter name)) (.ok ())

end Typing

/-! ## Surroundings -/

/-- A name can be declared exactly if its image can be. -/
theorem Scope.declare_rename (hr : Function.Injective r) (scope : Scope) (name : String)
    (type : Ty) :
    RenamedOutcome r (Scope.rename r) (scope.declare name type)
      ((scope.rename r).declare (r name) (type.rename r)) := by
  rw [declare, declare, find?_rename hr, Option.isSome_map]
  exact .ite (.error (.alreadyDeclared name)) (.ok ((name, type) :: scope))

/-- Several names can be declared in turn exactly if their images can be. -/
theorem Scope.declareAll_rename (hr : Function.Injective r) (declarations : List (String × Ty))
    (scope : Scope) :
    RenamedOutcome r (Scope.rename r) (scope.declareAll declarations)
      ((scope.rename r).declareAll (declarations.map (renameDeclaration r))) := by
  induction declarations generalizing scope with
  | nil => exact .ok scope
  | cons declaration declarations ih =>
    obtain ⟨name, type⟩ := declaration
    rw [List.map_cons, renameDeclaration, declareAll, declareAll]
    exact .bind (scope.declare_rename hr name type) ih

/-- The declarations of renamed parameters are the renamed declarations. -/
theorem Params.declarations_rename (params : List Param) :
    (Params.rename r params).map Param.declaration =
      (params.map Param.declaration).map (renameDeclaration r) := by
  rw [Params.rename_eq_map, List.map_map, List.map_map]
  rfl

namespace Env

/-- Surroundings under new names. -/
def rename (r : String → String) (env : Env) : Env :=
  ⟨env.scope.rename r, env.outer.map (Scope.rename r), env.result?.map (Ty.rename r)⟩

/-- The image of a name means the renamed type, or is blamed in its place. -/
theorem lookup_rename (hr : Function.Injective r) (env : Env) (name : String) :
    RenamedOutcome r (Ty.rename r) (env.lookup name) ((env.rename r).lookup (r name)) := by
  have hfind : (env.rename r).scopes.findSome? (·.find? (r name)) =
      (env.scopes.findSome? (·.find? name)).map (Ty.rename r) := by
    show (env.scopes.map (Scope.rename r)).findSome? (·.find? (r name)) = _
    rw [List.findSome?_map, List.map_findSome?]
    exact congrArg (List.findSome? · _) (funext fun scope => scope.find?_rename hr name)
  rw [lookup, lookup, hfind]
  cases env.scopes.findSome? (·.find? name) with
  | none => exact .error (.notDeclared name)
  | some type => exact .ok type

/-- A renamed body is asked for the renamed result. -/
theorem resultType_rename (env : Env) :
    RenamedOutcome r (Ty.rename r) env.resultType (env.rename r).resultType := by
  obtain ⟨scope, outer, result?⟩ := env
  cases result? with
  | none => exact .error .returnOutsideFunction
  | some result => exact .ok result

/-- A name can be declared in a block exactly if its image can be in the renamed one. -/
theorem vacant_rename (hr : Function.Injective r) (env : Env) (name : String) :
    RenamedOutcome r id (env.vacant name) ((env.rename r).vacant (r name)) := by
  have hfind : (env.rename r).scope.find? (r name) = (env.scope.find? name).map (Ty.rename r) :=
    env.scope.find?_rename hr name
  rw [vacant, vacant, hfind, Option.isSome_map]
  exact .ite (.error (.alreadyDeclared name)) (.ok ())

/-- A block opens the same scope in renamed surroundings. -/
theorem block_rename (env : Env) : (env.rename r).block = env.block.rename r := rfl

/-- A body is entered with renamed parameters, or the image of a repeated name is blamed. -/
theorem body_rename (hr : Function.Injective r) (env : Env) (params : List Param) (result : Ty) :
    RenamedOutcome r (Env.rename r) (env.body params result)
      ((env.rename r).body (Params.rename r params) (result.rename r)) := by
  rw [body, body, Scope.ofList_eq, Scope.ofList_eq, Params.declarations_rename]
  exact .bind (Scope.declareAll_rename hr _ []) fun scope =>
    .ok (Env.mk scope env.scopes (some result))

/-- Behind a renamed statement are the renamed surroundings. -/
theorem extend_rename (env : Env) (s : Stmt) :
    (env.rename r).extend (s.rename r).declaration? = (env.extend s.declaration?).rename r := by
  cases s <;> rfl

end Env

/-! ## Trees -/

mutual

/-- **Expressions**: a renamed expression has the renamed type or the renamed fault, in renamed
surroundings. One case for each form, put together from the rules of typing above. -/
theorem Expr.typeIn_rename (hr : Function.Injective r) : ∀ (e : Expr) (env : Env),
    RenamedOutcome r (Ty.rename r) (e.typeIn env) ((e.rename r).typeIn (env.rename r))
  | .cond condition, env => by
    rw [Expr.rename, Expr.typeIn, Expr.typeIn]
    exact condition.typeIn_rename hr env
  | .add sum, env => by
    rw [Expr.rename, Expr.typeIn, Expr.typeIn]
    exact sum.typeIn_rename hr env
  | .array entries, env => by
    rw [Expr.rename, Expr.typeIn, Expr.typeIn]
    exact .bind (Exprs.typesIn_rename hr entries env) (Typing.array_rename hr)
  | .closure params result body, env => by
    rw [Expr.rename, Expr.typeIn, Expr.typeIn]
    refine .bind (Params.checkIn_rename hr [] params env) fun _ => ?_
    refine .bind (env.body_rename hr params result) fun inner => ?_
    exact .bind (Stmts.checkIn_rename hr body inner) fun _ => .ok (Ty.fn params result 0)

theorem Exprs.typesIn_rename (hr : Function.Injective r) : ∀ (es : List Expr) (env : Env),
    RenamedOutcome r (List.map (Ty.rename r)) (Exprs.typesIn env es)
      (Exprs.typesIn (env.rename r) (Exprs.rename r es))
  | [], env => by
    rw [Exprs.rename, Exprs.typesIn, Exprs.typesIn]
    exact .ok []
  | e :: es, env => by
    rw [Exprs.rename, Exprs.typesIn, Exprs.typesIn]
    refine .bind (e.typeIn_rename hr env) fun type => ?_
    exact .bind (Exprs.typesIn_rename hr es env) fun types => .ok (type :: types)

/-- The parameters of a closure are checked alike, after the images of the names before. -/
theorem Params.checkIn_rename (hr : Function.Injective r) :
    ∀ (seen : List String) (params : List Param) (env : Env),
    RenamedOutcome r id (Params.checkIn env seen params)
      (Params.checkIn (env.rename r) (seen.map r) (Params.rename r params))
  | seen, [], env => by
    rw [Params.rename, Params.checkIn, Params.checkIn]
    exact .ok ()
  | seen, ⟨name, type, default?⟩ :: params, env => by
    rw [Params.rename, Params.checkIn, Params.checkIn]
    refine .bind (Typing.newParam_rename hr seen name) fun _ => ?_
    refine .bind (Default.checkIn_rename hr type default? env) fun _ => ?_
    exact Params.checkIn_rename hr (name :: seen) params env

theorem Default.checkIn_rename (hr : Function.Injective r) :
    ∀ (type : Ty) (default? : Option Expr) (env : Env),
    RenamedOutcome r id (Default.checkIn env type default?)
      (Default.checkIn (env.rename r) (type.rename r) (Default.rename r default?))
  | type, none, env => by
    rw [Default.rename, Default.checkIn, Default.checkIn]
    exact .ok ()
  | type, some value, env => by
    rw [Default.rename, Default.checkIn, Default.checkIn]
    exact .bind (value.typeIn_rename hr env) (Typing.demand_rename hr type)

theorem Condition.typeIn_rename (hr : Function.Injective r) :
    ∀ (condition : Condition) (env : Env),
    RenamedOutcome r (Ty.rename r) (condition.typeIn env)
      ((condition.rename r).typeIn (env.rename r))
  | .single left relop right, env => by
    rw [Condition.rename, Condition.typeIn, Condition.typeIn]
    refine .bind (left.typeIn_rename hr env) fun leftType => ?_
    refine .bind (right.typeIn_rename hr env) fun rightType => ?_
    exact .bind (Typing.comparable_rename hr leftType relop rightType) fun _ => .ok Ty.bool
  | .chain left relop right boolop next, env => by
    rw [Condition.rename, Condition.typeIn, Condition.typeIn]
    refine .bind (left.typeIn_rename hr env) fun leftType => ?_
    refine .bind (right.typeIn_rename hr env) fun rightType => ?_
    exact .bind (Typing.comparable_rename hr leftType relop rightType) fun _ =>
      next.typeIn_rename hr env

theorem AddExpr.typeIn_rename (hr : Function.Injective r) : ∀ (sum : AddExpr) (env : Env),
    RenamedOutcome r (Ty.rename r) (sum.typeIn env) ((sum.rename r).typeIn (env.rename r))
  | .single term, env => by
    rw [AddExpr.rename, AddExpr.typeIn, AddExpr.typeIn]
    exact term.typeIn_rename hr env
  | .chain term addop next, env => by
    rw [AddExpr.rename, AddExpr.typeIn, AddExpr.typeIn]
    refine .bind (term.typeIn_rename hr env) fun head => ?_
    refine .bind (next.typeIn_rename hr env) fun tail => ?_
    exact .bind (Typing.joinable_rename hr head tail) fun _ => .ok head

theorem Term.typeIn_rename (hr : Function.Injective r) : ∀ (term : Term) (env : Env),
    RenamedOutcome r (Ty.rename r) (term.typeIn env) ((term.rename r).typeIn (env.rename r))
  | .single factor, env => by
    rw [Term.rename, Term.typeIn, Term.typeIn]
    exact factor.typeIn_rename hr env
  | .chain factor mulop next, env => by
    rw [Term.rename, Term.typeIn, Term.typeIn]
    refine .bind (factor.typeIn_rename hr env) fun head => ?_
    refine .bind (next.typeIn_rename hr env) fun tail => ?_
    exact .bind (Typing.joinable_rename hr head tail) fun _ => .ok head

/-- A name is looked up under its image, and arguments are passed under theirs. -/
theorem Factor.typeIn_rename (hr : Function.Injective r) : ∀ (factor : Factor) (env : Env),
    RenamedOutcome r (Ty.rename r) (factor.typeIn env) ((factor.rename r).typeIn (env.rename r))
  | .var name indices, env => by
    rw [Factor.rename, Factor.typeIn, Factor.typeIn, Exprs.length_rename]
    exact .bind (env.lookup_rename hr name) fun declared =>
      Typing.indexed_rename name declared indices.length
  | .call callee args, env => by
    rw [Factor.rename, Factor.typeIn, Factor.typeIn]
    refine .bind (env.lookup_rename hr callee) fun declared => ?_
    refine .bind (Typing.signature_rename hr callee declared args) fun (params, result) => ?_
    exact .bind (Args.checkIn_rename hr params args env) fun _ => .ok result
  | .int value, env => by
    rw [Factor.rename, Factor.typeIn, Factor.typeIn]
    exact .ok Ty.int
  | .float value, env => by
    rw [Factor.rename, Factor.typeIn, Factor.typeIn]
    exact .ok Ty.float
  | .paren inner, env => by
    rw [Factor.rename, Factor.typeIn, Factor.typeIn]
    exact inner.typeIn_rename hr env

/-- Arguments are checked alike against renamed parameters. -/
theorem Args.checkIn_rename (hr : Function.Injective r) :
    ∀ (params : List Param) (args : List Arg) (env : Env),
    RenamedOutcome r id (Args.checkIn env params args)
      (Args.checkIn (env.rename r) (Params.rename r params) (Args.rename r args))
  | params, [], env => by
    rw [Args.rename, Args.checkIn, Args.checkIn]
    exact .ok ()
  | params, ⟨name, value⟩ :: args, env => by
    rw [Args.rename, Args.checkIn, Args.checkIn]
    refine .bind (value.typeIn_rename hr env) fun received => ?_
    exact .bind (Typing.argument_rename hr params name received) fun _ =>
      Args.checkIn_rename hr params args env

/-- **Statements**: a renamed statement is accepted, or has the renamed fault. -/
theorem Stmt.checkIn_rename (hr : Function.Injective r) : ∀ (s : Stmt) (env : Env),
    RenamedOutcome r id (s.checkIn env) ((s.rename r).checkIn (env.rename r))
  | .ifThen condition body, env => by
    rw [Stmt.rename, Stmt.checkIn, Stmt.checkIn, env.block_rename]
    exact .bind (condition.typeIn_rename hr env) fun _ => Stmts.checkIn_rename hr body env.block
  | .ifElse condition body otherwise, env => by
    rw [Stmt.rename, Stmt.checkIn, Stmt.checkIn, env.block_rename]
    refine .bind (condition.typeIn_rename hr env) fun _ => ?_
    exact .bind (Stmts.checkIn_rename hr body env.block) fun _ =>
      Stmts.checkIn_rename hr otherwise env.block
  | .loop condition body, env => by
    rw [Stmt.rename, Stmt.checkIn, Stmt.checkIn, env.block_rename]
    exact .bind (condition.typeIn_rename hr env) fun _ => Stmts.checkIn_rename hr body env.block
  | .assign name value, env => by
    rw [Stmt.rename, Stmt.checkIn, Stmt.checkIn]
    refine .bind (env.lookup_rename hr name) fun expected => ?_
    exact .bind (value.typeIn_rename hr env) (Typing.demand_rename hr expected)
  | .ret value, env => by
    rw [Stmt.rename, Stmt.checkIn, Stmt.checkIn]
    refine .bind env.resultType_rename fun expected => ?_
    exact .bind (value.typeIn_rename hr env) (Typing.demand_rename hr expected)
  | .letVar name type value, env => by
    rw [Stmt.rename, Stmt.checkIn, Stmt.checkIn]
    refine .bind (value.typeIn_rename hr env) fun received => ?_
    exact .bind (Typing.demand_rename hr type received) fun _ => env.vacant_rename hr name
  | .letFun name params result body, env => by
    rw [Stmt.rename, Stmt.checkIn, Stmt.checkIn]
    refine .bind (env.body_rename hr params result) fun inner => ?_
    exact .bind (Stmts.checkIn_rename hr body inner) fun _ => env.vacant_rename hr name
  | .call callee args, env => by
    rw [Stmt.rename, Stmt.checkIn, Stmt.checkIn]
    refine .bind (env.lookup_rename hr callee) fun declared => ?_
    refine .bind (Typing.signature_rename hr callee declared args) fun (params, _) => ?_
    exact Args.checkIn_rename hr params args env

/-- Statements are renamed together with what they declare for those behind them. -/
theorem Stmts.checkIn_rename (hr : Function.Injective r) : ∀ (body : List Stmt) (env : Env),
    RenamedOutcome r id (Stmts.checkIn env body)
      (Stmts.checkIn (env.rename r) (Stmts.rename r body))
  | [], env => by
    rw [Stmts.rename, Stmts.checkIn, Stmts.checkIn]
    exact .ok ()
  | s :: rest, env => by
    rw [Stmts.rename, Stmts.checkIn, Stmts.checkIn, env.extend_rename]
    exact .bind (s.checkIn_rename hr env) fun _ =>
      Stmts.checkIn_rename hr rest (env.extend s.declaration?)

end

/-! ## Programs -/

/-- A context under new names. -/
def Context.rename (r : String → String) (c : Context) : Context :=
  ⟨c.scope.rename r, c.outer.map (Scope.rename r), c.results.map (Ty.rename r)⟩

/-- The identifiers that every program starts with: the names of the built-in functions, and `x`,
the parameter of `print`. -/
def initialNames : List String := builtInNames ++ ["x"]

/-- A renaming that fixes the built-in names, parameters included, fixes the scope in which a
program starts. -/
theorem Scope.builtIns_rename (hfixed : ∀ name ∈ initialNames, r name = name) :
    Scope.builtIns.rename r = Scope.builtIns := by
  simp only [initialNames, builtInNames, List.cons_append, List.nil_append,
    List.forall_mem_cons] at hfixed
  obtain ⟨hprint, hint, hfloat, hbool, hx, -⟩ := hfixed
  simp [Scope.rename, builtIns, renameDeclaration, Ty.rename, Params.rename, Default.rename,
    Ty.any, Ty.noValue, Ty.int, Ty.float, Ty.bool, hprint, hint, hfloat, hbool, hx]

/-- Renamed statements declare the images of what they declared. -/
theorem Stmts.declarations_rename (body : List Stmt) :
    Stmts.declarations (Stmts.rename r body) =
      (Stmts.declarations body).map (renameDeclaration r) := by
  induction body with
  | nil => rfl
  | cons s rest ih =>
    rw [Stmts.rename, Stmts.declarations_cons, Stmts.declarations_cons, List.map_append, ih]
    cases s <;> rfl

/-- A renamed program ends in the renamed context. -/
theorem Program.finalContext_rename (hfixed : ∀ name ∈ initialNames, r name = name)
    (p : Program) : (p.rename r).finalContext = p.finalContext.rename r := by
  have hscope : (p.rename r).finalContext.scope = p.finalContext.scope.rename r := by
    show (Stmts.declarations (Stmts.rename r p.body)).reverse ++ Scope.builtIns =
      ((Stmts.declarations p.body).reverse ++ Scope.builtIns).map (renameDeclaration r)
    rw [Stmts.declarations_rename, List.map_append, List.map_reverse]
    exact congrArg (_ ++ ·) (Scope.builtIns_rename hfixed).symm
  exact congrArg (Context.mk · [] []) hscope

/-- **Renaming does not change the verdict**: under an injective map of names that fixes the
built-in functions and their parameter, a program is accepted if and only if it was, with the same
context at its end up to names, and is otherwise rejected for the same reason. -/
theorem Program.check_rename (hr : Function.Injective r)
    (hfixed : ∀ name ∈ initialNames, r name = name) (p : Program) :
    match p.check, (p.rename r).check with
    | .ok c, .ok c' => c' = c.rename r
    | .error fault, .error fault' => fault'.name = fault.name ∧ fault.Renamed r fault'
    | _, _ => False := by
  have hinitial : Env.initial.rename r = Env.initial :=
    congrArg (Env.mk · [] none) (Scope.builtIns_rename hfixed)
  have houtcome : RenamedOutcome r id p.checkLexically (p.rename r).checkLexically := by
    -- The built-in functions keep their names, so the renamed body starts in the same surroundings.
    have hbody := Stmts.checkIn_rename hr p.body .initial
    rw [hinitial] at hbody
    exact hbody
  rw [Program.check_eq, Program.check_eq, Program.finalContext_rename hfixed]
  generalize p.checkLexically = outcome at houtcome ⊢
  generalize (p.rename r).checkLexically = outcome' at houtcome ⊢
  cases houtcome with
  | ok => rfl
  | error h => exact ⟨h.name_eq, h⟩

/-- A parameter has the name of a variable, and the call assigns its result to `target`:
`let a : int <- 1; fun f(a: int, b: int <- 2): int <- begin return b; end target <- f(a: a);`. -/
def assignedCall (target : String) : Program := ⟨[
  .letVar "a" .int (Factor.int 1).toExpr,
  .letFun "f" [⟨"a", .int, none⟩, ⟨"b", .int, some (Factor.int 2).toExpr⟩] .int
    [.ret (Factor.var "b" []).toExpr],
  .assign target (Factor.call "f" [⟨"a", (Factor.var "a" []).toExpr⟩]).toExpr]⟩

/-- The names `a` and `b` trade places: the variable `a` that is assigned to becomes `b`, and an
undeclared `b` becomes an undeclared `a`. -/
theorem assignedCall_swap :
    (∃ c, ((assignedCall "a").rename (Equiv.swap "a" "b")).check = .ok c) ∧
      ((assignedCall "b").rename (Equiv.swap "a" "b")).check = .error (.notDeclared "a") := by
  have hinjective : Function.Injective (Equiv.swap "a" "b") := (Equiv.swap "a" "b").injective
  have hfixed : ∀ name ∈ initialNames, Equiv.swap "a" "b" name = name := by decide
  constructor
  · have haccepted : (assignedCall "a").check = .ok (assignedCall "a").finalContext := rfl
    have hverdict := Program.check_rename hinjective hfixed (assignedCall "a")
    rw [haccepted] at hverdict
    cases hcheck : ((assignedCall "a").rename (Equiv.swap "a" "b")).check with
    | ok c => exact ⟨c, rfl⟩
    | error fault =>
      rw [hcheck] at hverdict
      exact hverdict.elim
  · have hrejected : (assignedCall "b").check = .error (.notDeclared "b") := rfl
    have hverdict := Program.check_rename hinjective hfixed (assignedCall "b")
    rw [hrejected] at hverdict
    cases hcheck : ((assignedCall "b").rename (Equiv.swap "a" "b")).check with
    | ok c =>
      rw [hcheck] at hverdict
      exact hverdict.elim
    | error fault =>
      rw [hcheck] at hverdict
      obtain ⟨-, hrenamed⟩ := hverdict
      cases hrenamed
      rw [Equiv.swap_apply_right]

end FrontEnd
