import FrontEnd.Proofs.Naming.Explanation
import FrontEnd.Proofs.Scoping.Refinement

/-!
# The faults of names and returns

The names of every tree explain what the lexical rules say about it, and so what a check says:

- `Expr.typeIn_explained`, `Stmt.checkIn_explained`: in given surroundings.
- `Program.check_explained`: a program is checked without a fault only if all its names are in
  order, and a fault about names or returns is one that its tree has.

What is declared around a statement is exactly what stands in front of it. This holds along a block
because the scope of the block grows by what each statement declares, and keeps its names apart.
-/

namespace FrontEnd

namespace Naming

variable {n m : Naming} {declared : List String}

/-- A block that declares no name twice adds no fault. -/
theorem block_of_nodup (n : Naming) (h : declared.Nodup) : n.block declared = n := by
  rw [block, repeated_eq_empty_iff.2 h, Finset.union_empty]

/-- What a block repeats is part of whatever the block is joined to. -/
theorem join_block (n m : Naming) (declared : List String) :
    n.join (m.block declared) = (n.join m).block declared := by
  rw [join, block, block, join, Finset.union_assoc]

/-- Of a block only what it declares altogether matters, and not after which statement. -/
theorem join_blocks (n m : Naming) {early late all : List String} (hearly : early.Sublist all)
    (hlate : late.Perm all) :
    (n.block early).join ((m.block late).behind declared) =
      (n.join (m.behind declared)).block all := by
  have hsubset : repeated early ∪ repeated all = repeated all :=
    Finset.union_eq_right.2 (repeated_mono hearly)
  simp only [join, block, behind]
  rw [Finset.union_union_union_comm, repeated_perm hlate, hsubset]

end Naming

/-! ## Along a block -/

/-- A statement that declares nothing leaves its block as it is. -/
theorem Naming.block_undeclared (n : Naming) {names : List String} {s : Stmt} (h : names.Nodup)
    (hs : s.declaration? = none) : n.block (names ++ s.declared) = n := by
  rw [Stmt.declared, hs, Option.toList_none, List.map_nil, List.append_nil, n.block_of_nodup h]

/-- A statement adds what it declares to the names of its block. -/
theorem Env.names_extend (env : Env) (s : Stmt) :
    (env.extend s.declaration?).scope.names = s.declared ++ env.scope.names := by
  unfold Stmt.declared
  cases s.declaration? <;> rfl

/-- Behind a statement, the names in scope are those in front of it and its own. -/
theorem Env.mem_names_extend (env : Env) (s : Stmt) (name : String) :
    name ∈ (env.extend s.declaration?).names ↔ name ∈ s.declared ∨ name ∈ env.names := by
  have houter : (env.extend s.declaration?).outer = env.outer := by
    cases s.declaration? <;> rfl
  rw [names, names, scopes, scopes, List.flatMap_cons, List.flatMap_cons, names_extend, houter,
    List.append_assoc, List.mem_append]

/-- A declaration does not change whether a result is asked for. -/
theorem Env.result?_extend (env : Env) (declaration? : Option (String × Ty)) :
    (env.extend declaration?).result? = env.result? := by
  cases declaration? <;> rfl

/-! ## Trees -/

open Naming

mutual

/-- The names in an expression explain what its rule says. A closure declares its parameters for its
body, and its defaults stand in front of them. -/
theorem Expr.typeIn_explained : ∀ (e : Expr) (env : Env), e.naming.Explains env (e.typeIn env)
  | .cond condition, env => by
    rw [Expr.naming, Expr.typeIn]
    exact condition.typeIn_explained env
  | .add sum, env => by
    rw [Expr.naming, Expr.typeIn]
    exact sum.typeIn_explained env
  | .array entries, env => by
    rw [Expr.naming, Expr.typeIn]
    exact (Exprs.typesIn_explained entries env).bind_silent explains_array
  | .closure params result body, env => by
    rw [Expr.naming, Expr.typeIn]
    -- Names in defaults are looked up outside of the body.
    refine (Params.checkIn_explained [] params env).bind fun _ => ?_
    rw [← bind_assoc]
    refine Explains.bind_silent ?_ fun _ => explains_ok _
    exact explains_body (Stmts.checkIn_explained body)

theorem Exprs.typesIn_explained : ∀ (es : List Expr) (env : Env),
    (Exprs.naming es).Explains env (Exprs.typesIn env es)
  | [], env => by
    rw [Exprs.naming, Exprs.typesIn]
    exact explains_ok _
  | e :: es, env => by
    rw [Exprs.naming, Exprs.typesIn]
    refine (e.typeIn_explained env).bind fun _ => ?_
    exact (Exprs.typesIn_explained es env).bind_silent fun _ => explains_ok _

/-- The defaults of parameters explain what the rule says about their names. -/
theorem Params.checkIn_explained : ∀ (seen : List String) (params : List Param) (env : Env),
    (Params.naming params).Explains env (Params.checkIn env seen params)
  | _, [], env => by
    rw [Params.naming, Params.checkIn]
    exact explains_ok _
  | seen, ⟨name, type, default?⟩ :: params, env => by
    rw [Params.naming, Params.checkIn]
    refine (explains_newParam seen name).silent_bind fun _ => ?_
    refine (Default.checkIn_explained type default? env).bind fun _ => ?_
    exact Params.checkIn_explained (name :: seen) params env

theorem Default.checkIn_explained : ∀ (type : Ty) (default? : Option Expr) (env : Env),
    (Default.naming default?).Explains env (Default.checkIn env type default?)
  | _, none, env => by
    rw [Default.naming, Default.checkIn]
    exact explains_ok _
  | type, some value, env => by
    rw [Default.naming, Default.checkIn]
    exact (value.typeIn_explained env).bind_silent (explains_demand type)

/-- A condition joins the names of its sides. -/
theorem Condition.typeIn_explained : ∀ (condition : Condition) (env : Env),
    condition.naming.Explains env (condition.typeIn env)
  | .single left relop right, env => by
    rw [Condition.naming, Condition.typeIn]
    refine (left.typeIn_explained env).bind fun leftType => ?_
    refine (right.typeIn_explained env).bind_silent fun rightType => ?_
    exact (explains_comparable leftType relop rightType).bind_silent fun _ => explains_ok _
  | .chain left relop right _ next, env => by
    rw [Condition.naming, Condition.typeIn]
    refine (left.typeIn_explained env).bind fun leftType => ?_
    refine (right.typeIn_explained env).bind fun rightType => ?_
    exact (explains_comparable leftType relop rightType).silent_bind fun _ =>
      next.typeIn_explained env

theorem AddExpr.typeIn_explained : ∀ (sum : AddExpr) (env : Env),
    sum.naming.Explains env (sum.typeIn env)
  | .single term, env => by
    rw [AddExpr.naming, AddExpr.typeIn]
    exact term.typeIn_explained env
  | .chain term _ next, env => by
    rw [AddExpr.naming, AddExpr.typeIn]
    refine (term.typeIn_explained env).bind fun head => ?_
    refine (next.typeIn_explained env).bind_silent fun tail => ?_
    exact (explains_joinable head tail).bind_silent fun _ => explains_ok _

theorem Term.typeIn_explained : ∀ (term : Term) (env : Env),
    term.naming.Explains env (term.typeIn env)
  | .single factor, env => by
    rw [Term.naming, Term.typeIn]
    exact factor.typeIn_explained env
  | .chain factor _ next, env => by
    rw [Term.naming, Term.typeIn]
    refine (factor.typeIn_explained env).bind fun head => ?_
    refine (next.typeIn_explained env).bind_silent fun tail => ?_
    exact (explains_joinable head tail).bind_silent fun _ => explains_ok _

/-- A factor uses the name of its variable or callee, which has to be in scope. -/
theorem Factor.typeIn_explained : ∀ (factor : Factor) (env : Env),
    factor.naming.Explains env (factor.typeIn env)
  | .var name indices, env => by
    rw [Factor.naming, Factor.typeIn]
    refine (explains_lookup name).bind_silent fun declared => ?_
    exact explains_indexed name declared indices.length
  | .call callee args, env => by
    rw [Factor.naming, Factor.typeIn]
    refine (explains_lookup callee).bind fun declared => ?_
    refine (explains_signature callee declared args).silent_bind fun (params, result) => ?_
    exact (Args.checkIn_explained params args env).bind_silent fun _ => explains_ok _
  | .int _, env => by
    rw [Factor.naming, Factor.typeIn]
    exact explains_ok _
  | .float _, env => by
    rw [Factor.naming, Factor.typeIn]
    exact explains_ok _
  | .paren inner, env => by
    rw [Factor.naming, Factor.typeIn]
    exact inner.typeIn_explained env

/-- Arguments use the names in their values. The names of the arguments themselves are looked up
among the parameters and are none of these. -/
theorem Args.checkIn_explained : ∀ (params : List Param) (args : List Arg) (env : Env),
    (Args.naming args).Explains env (Args.checkIn env params args)
  | _, [], env => by
    rw [Args.naming, Args.checkIn]
    exact explains_ok _
  | params, ⟨name, value⟩ :: args, env => by
    rw [Args.naming, Args.checkIn]
    refine (value.typeIn_explained env).bind fun received => ?_
    refine (explains_argument params name received).silent_bind fun _ => ?_
    exact Args.checkIn_explained params args env

/-- What a statement declares must be new among the names of its block so far. -/
theorem Stmt.checkIn_explained : ∀ (s : Stmt) (env : Env), env.scope.names.Nodup →
    (s.naming.block (env.scope.names ++ s.declared)).Explains env (s.checkIn env)
  | .ifThen condition body, env, hscope => by
    rw [Stmt.naming, Stmt.checkIn, block_undeclared _ hscope rfl]
    refine (condition.typeIn_explained env).bind fun _ => ?_
    exact (Stmts.checkIn_explained body env.block List.nodup_nil).of_block
  | .ifElse condition body otherwise, env, hscope => by
    rw [Stmt.naming, Stmt.checkIn, block_undeclared _ hscope rfl]
    refine (condition.typeIn_explained env).bind fun _ => ?_
    refine (Stmts.checkIn_explained body env.block List.nodup_nil).of_block.bind fun _ => ?_
    exact (Stmts.checkIn_explained otherwise env.block List.nodup_nil).of_block
  | .loop condition body, env, hscope => by
    rw [Stmt.naming, Stmt.checkIn, block_undeclared _ hscope rfl]
    refine (condition.typeIn_explained env).bind fun _ => ?_
    exact (Stmts.checkIn_explained body env.block List.nodup_nil).of_block
  | .assign name value, env, hscope => by
    rw [Stmt.naming, Stmt.checkIn, block_undeclared _ hscope rfl]
    refine (explains_lookup name).bind fun expected => ?_
    exact (value.typeIn_explained env).bind_silent (explains_demand expected)
  | .ret value, env, hscope => by
    rw [Stmt.naming, Stmt.checkIn, block_undeclared _ hscope rfl]
    refine explains_resultType.bind fun expected => ?_
    exact (value.typeIn_explained env).bind_silent (explains_demand expected)
  | .letVar name type value, env, hscope => by
    have hdeclared : (Stmt.letVar name type value).declared = [name] := rfl
    rw [Stmt.naming, Stmt.checkIn, hdeclared, ← value.naming.join_silent, ← join_block]
    refine (value.typeIn_explained env).bind fun received => ?_
    refine (explains_demand type received).silent_bind fun _ => ?_
    exact explains_vacant hscope name
  | .letFun name params result body, env, hscope => by
    have hdeclared : (Stmt.letFun name params result body).declared = [name] := rfl
    rw [Stmt.naming, Stmt.checkIn, hdeclared, ← bind_assoc, ← Naming.join_silent (Naming.body ..),
      ← join_block]
    -- The body is checked first, so the name of the function is not yet declared in it.
    refine Explains.bind ?_ fun _ => explains_vacant hscope name
    exact explains_body (Stmts.checkIn_explained body)
  | .call callee args, env, hscope => by
    rw [Stmt.naming, Stmt.checkIn, block_undeclared _ hscope rfl]
    refine (explains_lookup callee).bind fun declared => ?_
    refine (explains_signature callee declared args).silent_bind fun (params, _) => ?_
    exact Args.checkIn_explained params args env

/-- The names of a block explain what its statements are checked to be. Each statement stands behind
what those in front of it declare. -/
theorem Stmts.checkIn_explained : ∀ (body : List Stmt) (env : Env), env.scope.names.Nodup →
    ((Stmts.naming body).block (env.scope.names ++ Stmts.declared body)).Explains env
      (Stmts.checkIn env body)
  | [], env, hscope => by
    have hdeclared : Stmts.declared [] = [] := rfl
    rw [Stmts.naming, Stmts.checkIn, hdeclared, List.append_nil, block_of_nodup _ hscope]
    exact explains_ok _
  | s :: rest, env, hscope => by
    have hs := s.checkIn_explained env hscope
    rw [Stmts.naming, Stmts.checkIn, Stmts.declared_cons, ← List.append_assoc]
    rw [← join_blocks s.naming (Stmts.naming rest) (List.sublist_append_left _ _)
      (List.perm_append_comm.append_right _)]
    -- The rest is checked only if the statement has no fault, and then its name was new.
    refine hs.seq (fun _ hok => ?_) (env.mem_names_extend s) (env.result?_extend _)
    rw [hok] at hs
    obtain ⟨-, hdoubled, -⟩ := hs
    have hnodup : (env.scope.names ++ s.declared).Nodup :=
      repeated_eq_empty_iff.1 (Finset.union_eq_empty.1 hdoubled).2
    have hrest := Stmts.checkIn_explained rest (env.extend s.declaration?)
    rw [env.names_extend] at hrest
    exact hrest (List.perm_append_comm.nodup hnodup)

end

/-! ## Programs -/

/-- The names of a program explain its verdict in front of the built-in functions. -/
theorem Program.checkLexically_explained (program : Program) :
    program.naming.Explains .initial program.checkLexically :=
  Stmts.checkIn_explained program.body .initial (by decide)

/-- **Faults of names and returns are those of the tree.** Without a fault the program has none; a
name that is not declared is free and not built in, a name that is declared already is declared
twice in one block, and a return outside every body is one. -/
theorem Program.check_explained (program : Program) :
    match program.check with
    | .ok _ =>
      program.naming.free ⊆ builtInNames.toFinset ∧ program.naming.doubled = ∅ ∧
        program.naming.returns = false
    | .error (.notDeclared name) => name ∈ program.naming.free ∧ name ∉ builtInNames
    | .error (.alreadyDeclared name) => name ∈ program.naming.doubled
    | .error .returnOutsideFunction => program.naming.returns = true
    | .error _ => True := by
  have h := program.checkLexically_explained
  rw [program.check_eq]
  cases hcheck : program.checkLexically with
  | ok _ =>
    rw [hcheck] at h
    obtain ⟨hfree, hdoubled, hreturns⟩ := h
    refine ⟨fun name hname => List.mem_toFinset.2 (hfree name hname), hdoubled, ?_⟩
    exact Bool.eq_false_iff.2 fun hret => Bool.noConfusion (hreturns hret)
  | error fault =>
    rw [hcheck] at h
    cases fault with
    | notDeclared name => exact h
    | alreadyDeclared name => exact h
    | returnOutsideFunction => exact h.1
    | _ => trivial

/-- A function is free in its own body. -/
example : (Program.mk [.letFun "f" [] .int [.call "f" []]]).naming.free = {"f"} := by decide

end FrontEnd
