import FrontEnd.Proofs.Agreement.Equivalence
import FrontEnd.Proofs.Runs.Written
import FrontEnd.Proofs.Scoping.Sites

/-!
# The faults of the rules

The rules of the language raise faults of names, types and arguments only. They never attempt to
leave the global scope: the lexical rules open no scope, and checks end as these do.

Some of the faults hold two types against each other. These never agree, and they come from the
program or are built in: whatever property is common to the built-in types and to those that the
program writes, and is handed on by the rules, is theirs as well.

- `Fault.isSemantic`, `Fault.contrast?`: the faults that a rule can raise, and the texts of the two
  types in them.
- `Ty.Inherited`: properties of types that the rules hand on.
- `Fault.Founded`, `Judged`: what every fault of a rule is like, and every type that a rule answers.
- `Expr.typeIn_judged`, `Stmts.checkIn_judged`: the lexical rules are judged so.
- `Program.check_founded`: so is the check of a program.
-/

namespace FrontEnd

/-- Whether a fault is one of names, types or arguments that a program can have. -/
def Fault.isSemantic : Fault → Bool
  | scopeUnderflow => false
  | fault => fault.kind != .lexical && fault.kind != .grammatical

/-- A fault of names, types or arguments belongs to no earlier stage, and is not that of leaving the
global scope. -/
theorem Fault.kind_of_isSemantic {fault : Fault} (h : fault.isSemantic = true) :
    fault.kind ≠ .lexical ∧ fault.kind ≠ .grammatical ∧ fault ≠ .scopeUnderflow := by
  cases fault <;> simp [isSemantic, kind] at h ⊢

/-- The types that a fault holds against each other, as it shows them. -/
def Fault.contrast? : Fault → Option (String × String)
  | typeMismatch expected received => some (expected, received)
  | argumentMismatch _ expected received => some (expected, received)
  | mixedEntries first other => some (first, other)
  | _ => none

/-! ## Properties that the rules hand on -/

/-- A property of the built-in types and of the empty array, that array levels do not matter to, and
that a function type has only if its parts have it. -/
structure Ty.Inherited (Good : Ty → Prop) : Prop where
  builtIns : ∀ declaration ∈ Scope.builtIns, Good declaration.2
  emptyArray : Good (.any 1)
  withDepth : ∀ {t : Ty} (depth : Nat), Good t → Good (t.withDepth depth)
  parts : ∀ {params : List Param} {result : Ty} {depth : Nat},
    Good (.fn params result depth) → (∀ p ∈ params, Good p.type) ∧ Good result

namespace Ty.Inherited

variable {Good : Ty → Prop}

/-- The type of integers is built in, as a result. -/
theorem int (h : Inherited Good) : Good .int :=
  (h.parts (h.builtIns ("readInt", .fn [] .int 0) (by simp [Scope.builtIns]))).2

/-- The type of floats is built in, as a result. -/
theorem float (h : Inherited Good) : Good .float :=
  (h.parts (h.builtIns ("readFloat", .fn [] .float 0) (by simp [Scope.builtIns]))).2

/-- The type of truth values is built in, as a result. -/
theorem bool (h : Inherited Good) : Good .bool :=
  (h.parts (h.builtIns ("readBool", .fn [] .bool 0) (by simp [Scope.builtIns]))).2

end Ty.Inherited

/-! ## Judgements -/

/-- A fault as the rules raise it: of types that it holds against each other, if any, both have the
property and they do not agree. -/
structure Fault.Founded (Good : Ty → Prop) (fault : Fault) : Prop where
  semantic : fault.isSemantic = true
  contrast : ∀ one other, fault.contrast? = some (one, other) →
    ∃ t u : Ty, Good t ∧ Good u ∧ t.agrees u = false ∧ one = t.text ∧ other = u.text

/-- The answer satisfies `Q`, or else the fault is founded. -/
def Judged (Good : Ty → Prop) {α : Type} (Q : α → Prop) : Except Fault α → Prop
  | .ok a => Q a
  | .error fault => fault.Founded Good

namespace Judged

variable {Good : Ty → Prop} {α β : Type} {Q : α → Prop} {Q' : β → Prop} {env : Env}

/-- Judgements in sequence, where the second may rely on what the first has answered. -/
theorem bind {r : Except Fault α} {g : α → Except Fault β} (hr : Judged Good Q r)
    (hg : ∀ a, Q a → Judged Good Q' (g a)) : Judged Good Q' (r >>= g) := by
  cases r with
  | ok a => exact hg a hr
  | error fault => exact hr

/-- A fault without types. -/
theorem plain {fault : Fault} (h : fault.isSemantic = true) (hnone : fault.contrast? = none) :
    Judged Good Q (.error fault) :=
  ⟨h, fun _ _ hsome => nomatch hnone.symm.trans hsome⟩

/-- A fault that holds two good types against each other is well founded if they do not agree. -/
theorem mismatch {t u : Ty} {fault : Fault} (ht : Good t) (hu : Good u)
    (htu : ¬ t.agrees u = true) (h : fault.isSemantic = true)
    (hcontrast : fault.contrast? = some (t.text, u.text)) : Judged Good Q (.error fault) := by
  refine ⟨h, fun one other hsome => ?_⟩
  obtain ⟨rfl, rfl⟩ := Prod.mk.inj (Option.some.inj (hcontrast.symm.trans hsome))
  exact ⟨t, u, ht, hu, Bool.eq_false_iff.2 htu, rfl, rfl⟩

/-! ## The elementary rules -/

/-- A type demanded in vain is held against the one received. -/
theorem demand {expected received : Ty} (he : Good expected) (hr : Good received) :
    Judged Good (fun _ => True) (Typing.demand expected received) := by
  unfold Typing.demand
  split
  · trivial
  · next h =>
    rw [Ty.agrees_comm] at h
    exact mismatch he hr h rfl rfl

/-- Operands of different types are held against each other. -/
theorem joinable {head tail : Ty} (hh : Good head) (ht : Good tail) :
    Judged Good (fun _ => True) (Typing.joinable head tail) := by
  unfold Typing.joinable
  split
  · split
    · trivial
    · exact plain rfl rfl
  · next h => exact mismatch hh ht h rfl rfl

/-- Sides of different types are held against each other. -/
theorem comparable {left right : Ty} (relop : String) (hl : Good left) (hr : Good right) :
    Judged Good (fun _ => True) (Typing.comparable left relop right) := by
  unfold Typing.comparable
  split
  · split
    · exact plain rfl rfl
    · trivial
  · next h => exact mismatch hl hr h rfl rfl

/-- Entries that do not agree with the first are held against it. -/
theorem array (hGood : Ty.Inherited Good) {types : List Ty} (h : ∀ t ∈ types, Good t) :
    Judged Good Good (Typing.array types) := by
  cases types with
  | nil => exact hGood.emptyArray
  | cons first rest =>
    obtain ⟨hfirst, hrest⟩ := List.forall_mem_cons.1 h
    rw [Typing.array_cons]
    split
    · next other hother =>
      have hdisagree := List.find?_some hother
      rw [Bool.not_eq_true', ← Bool.not_eq_true] at hdisagree
      exact mismatch hfirst (hrest other (List.mem_of_find?_eq_some hother)) hdisagree rfl rfl
    · exact hGood.withDepth _ hfirst

/-- Taking array levels away keeps a type good. Too many indices hold nothing against each other. -/
theorem indexed (hGood : Ty.Inherited Good) (name : String) {declared : Ty} (h : Good declared)
    (indices : Nat) : Judged Good Good (Typing.indexed name declared indices) := by
  unfold Typing.indexed
  split
  · exact hGood.withDepth _ h
  · exact plain rfl rfl

/-- The parts of a good function type are good. -/
theorem signature (hGood : Ty.Inherited Good) (callee : String) {declared : Ty}
    (h : Good declared) (args : List Arg) :
    Judged Good (fun (params, result) => (∀ p ∈ params, Good p.type) ∧ Good result)
      (Typing.signature callee declared args) := by
  unfold Typing.signature
  split
  · exact plain rfl rfl
  · next params result hfunction =>
    have hparts : (∀ p ∈ params, Good p.type) ∧ Good result := by
      unfold Ty.asFunction? at hfunction
      split at hfunction
      · cases hfunction
        exact hGood.parts h
      · cases hfunction
    split
    · exact plain rfl rfl
    · split
      · exact plain rfl rfl
      · exact hparts

/-- An argument is held against the type of the parameter that it names. -/
theorem argument {params : List Param} (hparams : ∀ p ∈ params, Good p.type) (name : String)
    {received : Ty} (hr : Good received) :
    Judged Good (fun _ => True) (Typing.argument params name received) := by
  unfold Typing.argument
  split
  · trivial
  · next param hparam =>
    split
    · trivial
    · next h =>
      have hdue := hparams param (List.mem_of_find?_eq_some hparam)
      rw [Ty.agrees_comm] at h
      exact mismatch hdue hr h rfl rfl

/-- A repeated parameter name is a plain fault. -/
theorem newParam (seen : List String) (name : String) :
    Judged Good (fun _ => True) (Typing.newParam seen name) := by
  unfold Typing.newParam
  split
  · exact plain rfl rfl
  · trivial

/-- What is in scope is good, and what is not in scope is a plain fault. -/
theorem lookup (henv : env.Holds Good) (name : String) : Judged Good Good (env.lookup name) := by
  cases hlookup : env.lookup name with
  | ok type => exact henv.lookup hlookup
  | error fault =>
    unfold Env.lookup at hlookup
    split at hlookup
    · cases hlookup
    · cases hlookup
      exact plain rfl rfl

/-- The result of a body is good, and a return outside of bodies is a plain fault. -/
theorem resultType (henv : env.Holds Good) : Judged Good Good env.resultType := by
  unfold Env.resultType
  split
  · next result hresult => exact henv.result result hresult
  · exact plain rfl rfl

/-- A name that is declared already is a plain fault. -/
theorem vacant (name : String) : Judged Good (fun _ => True) (env.vacant name) := by
  unfold Env.vacant
  split
  · exact plain rfl rfl
  · trivial

/-- Declaring several names raises plain faults only. -/
theorem declareAll (declarations : List (String × Ty)) (scope : Scope) :
    Judged Good (fun _ => True) (scope.declareAll declarations) := by
  induction declarations generalizing scope with
  | nil => trivial
  | cons declaration declarations ih =>
    refine bind (Q := fun _ => True) ?_ fun extended _ => ih extended
    unfold Scope.declare
    split
    · exact plain rfl rfl
    · trivial

/-- Entering a body makes good surroundings of good parameters. -/
theorem body (henv : env.Holds Good) {params : List Param} {result : Ty}
    (hparams : ∀ p ∈ params, Good p.type) (hresult : Good result) :
    Judged Good (Env.Holds Good) (env.body params result) := by
  cases hbody : env.body params result with
  | ok inner =>
    rw [Env.body_eq_ok hbody]
    exact henv.inside hparams hresult
  | error fault =>
    have hdeclared : Judged Good (fun _ => True)
        (Scope.declareAll [] (params.map Param.declaration)) := declareAll _ _
    rw [Env.body, Scope.ofList_eq] at hbody
    cases hscope : Scope.declareAll [] (params.map Param.declaration) with
    | ok scope =>
      rw [hscope] at hbody
      cases hbody
    | error fault' =>
      rw [hscope] at hbody hdeclared
      cases hbody
      exact hdeclared

end Judged

/-! ## Trees -/

section

variable {Good : Ty → Prop} {row : List Terminal}

/-- A head that is written has a type with the property. -/
theorem Ty.Inherited.head (hwritten : ∀ t : Ty, StandsIn t.yield row → Good t)
    {params : List Param} {result : Ty}
    (h : StandsIn (.mark .openParen :: Params.yield params ++
      .mark .closeParen :: .mark .colon :: result.yield) row) : Good (.fn params result 0) := by
  refine hwritten _ ?_
  rw [Ty.yield, levels_zero]
  exact h

/-- What a statement declares is good, for its types are written in it. -/
theorem Stmt.declaration_good (hwritten : ∀ t : Ty, StandsIn t.yield row → Good t) {s : Stmt}
    (h : StandsIn s.yield row) : ∀ declaration ∈ s.declaration?, Good declaration.2 := by
  cases s with
  | letVar name type value =>
    rintro _ ⟨⟩
    rw [Stmt.yield] at h
    exact hwritten type h.left.left.tail.tail.tail
  | letFun name params result body =>
    rintro _ ⟨⟩
    rw [Stmt.yield] at h
    exact Ty.Inherited.head hwritten h.left.left.tail.tail
  | _ => nofun

variable (hGood : Ty.Inherited Good) (hwritten : ∀ t : Ty, StandsIn t.yield row → Good t)

include hGood hwritten

-- Recursive calls hand the two hypotheses on without naming them.
set_option linter.unusedSectionVars false

mutual

/-- Every expression has a good type or a well-founded fault, where what surrounds it is good and it
is written in a program whose types are. -/
theorem Expr.typeIn_judged : ∀ (e : Expr) (env : Env), env.Holds Good → StandsIn e.yield row →
    Judged Good Good (e.typeIn env)
  | .cond condition, env, henv, h => by
    rw [Expr.yield] at h
    rw [Expr.typeIn]
    exact condition.typeIn_judged env henv h
  | .add sum, env, henv, h => by
    rw [Expr.yield] at h
    rw [Expr.typeIn]
    exact sum.typeIn_judged env henv h
  | .array entries, env, henv, h => by
    rw [Expr.yield] at h
    rw [Expr.typeIn]
    exact .bind (Exprs.typesIn_judged entries env henv h.left.tail) fun _ => .array hGood
  | .closure params result body, env, henv, h => by
    rw [Expr.yield] at h
    rw [Expr.typeIn]
    have htype : Good (.fn params result 0) := Ty.Inherited.head hwritten h.left.left
    obtain ⟨hparams, hresult⟩ := hGood.parts htype
    refine .bind (Params.checkIn_judged [] params env henv h.left.left.left.tail) fun _ _ => ?_
    refine .bind (.body henv hparams hresult) fun inner hinner => ?_
    have hbody := Stmts.checkIn_judged body inner hinner h.left.right.tail.tail
    exact .bind hbody fun _ _ => htype

theorem Exprs.typesIn_judged : ∀ (es : List Expr) (env : Env), env.Holds Good →
    StandsIn (Exprs.yield es) row → Judged Good (∀ t ∈ ·, Good t) (Exprs.typesIn env es)
  | [], env, henv, h => by
    rw [Exprs.typesIn]
    exact List.forall_mem_nil _
  | e :: es, env, henv, h => by
    obtain ⟨he, hes⟩ := Exprs.standsIn_cons h
    rw [Exprs.typesIn]
    refine .bind (e.typeIn_judged env henv he) fun type htype => ?_
    refine .bind (Exprs.typesIn_judged es env henv hes) fun types htypes => ?_
    exact List.forall_mem_cons.2 ⟨htype, htypes⟩

/-- The defaults of parameters are judged against types that the program writes. -/
theorem Params.checkIn_judged : ∀ (seen : List String) (params : List Param) (env : Env),
    env.Holds Good → StandsIn (Params.yield params) row →
    Judged Good (fun _ => True) (Params.checkIn env seen params)
  | seen, [], env, henv, h => by
    rw [Params.checkIn]
    trivial
  | seen, ⟨name, type, default?⟩ :: params, env, henv, h => by
    obtain ⟨hp, hparams⟩ := Params.standsIn_cons h
    have htype := hwritten type (Param.standsIn_type hp)
    have hvalue : ∀ value ∈ default?, StandsIn value.yield row := by
      rintro value ⟨⟩
      rw [Param.yield] at hp
      exact hp.right.tail
    rw [Params.checkIn]
    refine .bind (.newParam seen name) fun _ _ => ?_
    refine .bind (Default.checkIn_judged type default? env henv htype hvalue) fun _ _ => ?_
    exact Params.checkIn_judged (name :: seen) params env henv hparams

theorem Default.checkIn_judged : ∀ (type : Ty) (default? : Option Expr) (env : Env),
    env.Holds Good → Good type → (∀ value ∈ default?, StandsIn value.yield row) →
    Judged Good (fun _ => True) (Default.checkIn env type default?)
  | type, none, env, henv, htype, h => by
    rw [Default.checkIn]
    trivial
  | type, some value, env, henv, htype, h => by
    rw [Default.checkIn]
    exact .bind (value.typeIn_judged env henv (h value rfl)) fun _ => .demand htype

theorem Condition.typeIn_judged : ∀ (condition : Condition) (env : Env), env.Holds Good →
    StandsIn condition.yield row → Judged Good Good (condition.typeIn env)
  | .single left relop right, env, henv, h => by
    rw [Condition.yield] at h
    rw [Condition.typeIn]
    refine .bind (left.typeIn_judged env henv h.left) fun _ hleft => ?_
    refine .bind (right.typeIn_judged env henv h.right.tail) fun _ hright => ?_
    exact .bind (.comparable relop hleft hright) fun _ _ => hGood.bool
  | .chain left relop right boolop next, env, henv, h => by
    rw [Condition.yield] at h
    rw [Condition.typeIn]
    refine .bind (left.typeIn_judged env henv h.left.left) fun _ hleft => ?_
    refine .bind (right.typeIn_judged env henv h.left.right.tail) fun _ hright => ?_
    refine .bind (.comparable relop hleft hright) fun _ _ => ?_
    exact next.typeIn_judged env henv h.right.tail

theorem AddExpr.typeIn_judged : ∀ (sum : AddExpr) (env : Env), env.Holds Good →
    StandsIn sum.yield row → Judged Good Good (sum.typeIn env)
  | .single term, env, henv, h => by
    rw [AddExpr.yield] at h
    rw [AddExpr.typeIn]
    exact term.typeIn_judged env henv h
  | .chain term addop next, env, henv, h => by
    rw [AddExpr.yield] at h
    rw [AddExpr.typeIn]
    refine .bind (term.typeIn_judged env henv h.left) fun _ hhead => ?_
    refine .bind (next.typeIn_judged env henv h.right.tail) fun _ htail => ?_
    exact .bind (.joinable hhead htail) fun _ _ => hhead

theorem Term.typeIn_judged : ∀ (term : Term) (env : Env), env.Holds Good →
    StandsIn term.yield row → Judged Good Good (term.typeIn env)
  | .single factor, env, henv, h => by
    rw [Term.yield] at h
    rw [Term.typeIn]
    exact factor.typeIn_judged env henv h
  | .chain factor mulop next, env, henv, h => by
    rw [Term.yield] at h
    rw [Term.typeIn]
    refine .bind (factor.typeIn_judged env henv h.left) fun _ hhead => ?_
    refine .bind (next.typeIn_judged env henv h.right.tail) fun _ htail => ?_
    exact .bind (.joinable hhead htail) fun _ _ => hhead

/-- A variable has the type of its name with fewer levels, and a call the result of its callee. -/
theorem Factor.typeIn_judged : ∀ (factor : Factor) (env : Env), env.Holds Good →
    StandsIn factor.yield row → Judged Good Good (factor.typeIn env)
  | .var name indices, env, henv, h => by
    rw [Factor.typeIn]
    exact .bind (.lookup henv name) fun _ hdeclared => .indexed hGood name hdeclared _
  | .call callee args, env, henv, h => by
    rw [Factor.yield] at h
    rw [Factor.typeIn]
    refine .bind (.lookup henv callee) fun _ hdeclared => ?_
    refine .bind (.signature hGood callee hdeclared args) fun (params, result) hparts => ?_
    exact .bind (Args.checkIn_judged params args env henv hparts.1 h.left.tail.tail)
      fun _ _ => hparts.2
  | .int value, env, henv, h => by
    rw [Factor.typeIn]
    exact hGood.int
  | .float value, env, henv, h => by
    rw [Factor.typeIn]
    exact hGood.float
  | .paren inner, env, henv, h => by
    rw [Factor.yield] at h
    rw [Factor.typeIn]
    exact inner.typeIn_judged env henv h.left.tail

/-- Arguments are judged against the good parameters of their callee. -/
theorem Args.checkIn_judged : ∀ (params : List Param) (args : List Arg) (env : Env),
    env.Holds Good → (∀ p ∈ params, Good p.type) → StandsIn (Args.yield args) row →
    Judged Good (fun _ => True) (Args.checkIn env params args)
  | params, [], env, henv, hparams, h => by
    rw [Args.checkIn]
    trivial
  | params, ⟨name, value⟩ :: args, env, henv, hparams, h => by
    obtain ⟨harg, hargs⟩ := Args.standsIn_cons h
    rw [Arg.yield] at harg
    rw [Args.checkIn]
    refine .bind (value.typeIn_judged env henv harg.tail.tail) fun _ hreceived => ?_
    refine .bind (.argument hparams name hreceived) fun _ _ => ?_
    exact Args.checkIn_judged params args env henv hparams hargs

/-- Every statement is judged, with what it declares and what its bodies are asked for. -/
theorem Stmt.checkIn_judged : ∀ (s : Stmt) (env : Env), env.Holds Good → StandsIn s.yield row →
    Judged Good (fun _ => True) (s.checkIn env)
  | .ifThen condition body, env, henv, h => by
    rw [Stmt.yield] at h
    rw [Stmt.checkIn]
    refine .bind (condition.typeIn_judged env henv h.left.left.tail) fun _ _ => ?_
    exact Stmts.checkIn_judged body env.block henv.block h.left.right.tail
  | .ifElse condition body otherwise, env, henv, h => by
    rw [Stmt.yield] at h
    rw [Stmt.checkIn]
    refine .bind (condition.typeIn_judged env henv h.left.left.left.tail) fun _ _ => ?_
    have hbody := Stmts.checkIn_judged body env.block henv.block h.left.left.right.tail
    refine .bind hbody fun _ _ => ?_
    exact Stmts.checkIn_judged otherwise env.block henv.block h.left.right.tail
  | .loop condition body, env, henv, h => by
    rw [Stmt.yield] at h
    rw [Stmt.checkIn]
    refine .bind (condition.typeIn_judged env henv h.left.left.tail) fun _ _ => ?_
    exact Stmts.checkIn_judged body env.block henv.block h.left.right.tail
  | .assign name value, env, henv, h => by
    rw [Stmt.yield] at h
    rw [Stmt.checkIn]
    refine .bind (.lookup henv name) fun _ hexpected => ?_
    exact .bind (value.typeIn_judged env henv h.left.tail.tail) fun _ => .demand hexpected
  | .ret value, env, henv, h => by
    rw [Stmt.yield] at h
    rw [Stmt.checkIn]
    refine .bind (.resultType henv) fun _ hexpected => ?_
    exact .bind (value.typeIn_judged env henv h.left.tail) fun _ => .demand hexpected
  | .letVar name type value, env, henv, h => by
    rw [Stmt.yield] at h
    rw [Stmt.checkIn]
    have htype := hwritten type h.left.left.tail.tail.tail
    refine .bind (value.typeIn_judged env henv h.left.right.tail) fun _ hreceived => ?_
    exact .bind (.demand htype hreceived) fun _ _ => .vacant name
  | .letFun name params result body, env, henv, h => by
    rw [Stmt.yield] at h
    rw [Stmt.checkIn]
    have htype : Good (.fn params result 0) := Ty.Inherited.head hwritten h.left.left.tail.tail
    obtain ⟨hparams, hresult⟩ := hGood.parts htype
    refine .bind (.body henv hparams hresult) fun inner hinner => ?_
    have hbody := Stmts.checkIn_judged body inner hinner h.left.right.tail.tail
    exact .bind hbody fun _ _ => .vacant name
  | .call callee args, env, henv, h => by
    rw [Stmt.yield] at h
    rw [Stmt.checkIn]
    refine .bind (.lookup henv callee) fun _ hdeclared => ?_
    refine .bind (.signature hGood callee hdeclared args) fun (params, _) hparts => ?_
    exact Args.checkIn_judged params args env henv hparts.1 h.left.tail.tail

/-- Statements are judged one behind the other, each in good surroundings. -/
theorem Stmts.checkIn_judged : ∀ (body : List Stmt) (env : Env), env.Holds Good →
    StandsIn (Stmts.yield body) row → Judged Good (fun _ => True) (Stmts.checkIn env body)
  | [], env, henv, h => by
    rw [Stmts.checkIn]
    trivial
  | s :: rest, env, henv, h => by
    rw [Stmts.yield] at h
    rw [Stmts.checkIn]
    have hextended := henv.extend (Stmt.declaration_good hwritten h.left)
    refine .bind (s.checkIn_judged env henv h.left) fun _ _ => ?_
    exact Stmts.checkIn_judged rest _ hextended h.right

end

end

/-! ## Programs -/

/-- Types that the check of a program holds against each other have any property that the types in
the program have and the rules hand on. -/
theorem Program.check_founded {Good : Ty → Prop} (hGood : Ty.Inherited Good) (program : Program)
    (hwritten : ∀ t : Ty, StandsIn t.yield (Stmts.yield program.body) → Good t) (fault : Fault)
    (h : program.check = .error fault) : fault.Founded Good := by
  have hjudged := Stmts.checkIn_judged hGood hwritten program.body .initial
    (.initial hGood.builtIns) (.refl _)
  rw [program.check_eq] at h
  cases hrule : program.checkLexically with
  | ok _ =>
    rw [hrule] at h
    cases h
  | error fault' =>
    rw [hrule] at h
    cases h
    rw [Program.checkLexically] at hrule
    rw [hrule] at hjudged
    exact hjudged

/-- Checking a program never leaves the global scope, nor does it raise a fault of another stage. -/
theorem Program.check_semantic (program : Program) (fault : Fault)
    (h : program.check = .error fault) : fault.isSemantic = true := by
  have hall : Ty.Inherited fun _ => True :=
    ⟨fun _ _ => trivial, trivial, fun _ _ => trivial, fun _ => ⟨fun _ _ => trivial, trivial⟩⟩
  exact (program.check_founded hall (fun _ _ => trivial) fault h).semantic

end FrontEnd
