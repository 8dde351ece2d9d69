import FrontEnd.Proofs.Parameters.Distinct
import FrontEnd.Proofs.Parameters.Reordering
import FrontEnd.Proofs.Scoping.Defaults
import FrontEnd.Proofs.Scoping.Visibility

/-!
# The order of parameters does not matter

Two programs that differ in the order of parameters alone are checked side by side. Types that are
reorderings of each other are told apart by no rule, so both checks come to the same verdict at
every step. The faults themselves may differ, since they show types as they are written, and since
the defaults of a closure are checked in the order of its parameters.

- `SameVerdict`: two results are both faults or both answers, and then related.
- `Typing.signature_eq_ok_iff`: a call is accepted for the names of its arguments.
- `Env.Reordered`: surroundings that declare the same names, with reordered types.
- `Expr.Reordered.typeIn`, `Stmt.Reordered.checkIn`: the lexical rules on reordered trees.
- `Program.check_reordered`: a program is accepted if and only if its reorderings are.
-/

namespace FrontEnd

/-! ## Verdicts -/

/-- Both results are faults, or both are answers that are related. -/
inductive SameVerdict {α β : Type} (R : α → β → Prop) : Except Fault α → Except Fault β → Prop
  | ok {a : α} {b : β} (h : R a b) : SameVerdict R (.ok a) (.ok b)
  | error {fault fault' : Fault} : SameVerdict R (.error fault) (.error fault')

namespace SameVerdict

variable {α β α' β' : Type} {R : α → β → Prop} {S : α' → β' → Prop} {r : Except Fault α}
  {r' : Except Fault β}

/-- Rules in sequence have the same verdict if their parts do. -/
theorem bind {g : α → Except Fault α'} {g' : β → Except Fault β'} (h : SameVerdict R r r')
    (hg : ∀ {a b}, R a b → SameVerdict S (g a) (g' b)) : SameVerdict S (r >>= g) (r' >>= g') := by
  cases h with
  | ok hab => exact hg hab
  | error => exact .error

/-- A choice by one condition has the same verdict if both its ways do. -/
theorem ite {p : Prop} [Decidable p] {s : Except Fault α} {s' : Except Fault β}
    (h : SameVerdict R r r') (h' : SameVerdict R s s') :
    SameVerdict R (if p then r else s) (if p then r' else s') := by
  split
  · exact h
  · exact h'

/-- Two rules have the same verdict if every answer of one has its like on the other side. -/
theorem of_ok (hforth : ∀ a, r = .ok a → ∃ b, r' = .ok b ∧ R a b)
    (hback : ∀ b, r' = .ok b → ∃ a, r = .ok a) : SameVerdict R r r' := by
  cases r with
  | ok a =>
    obtain ⟨b, rfl, hab⟩ := hforth a rfl
    exact .ok hab
  | error fault =>
    cases r' with
    | ok b => exact nomatch hback b rfl
    | error fault' => exact .error

/-- Rules without an answer have the same verdict if they succeed together. -/
theorem of_iff {r r' : Except Fault Unit} (h : r = .ok () ↔ r' = .ok ()) : SameVerdict Eq r r' :=
  .of_ok (fun _ hr => ⟨(), h.1 hr, rfl⟩) fun _ hr' => ⟨(), h.2 hr'⟩

/-- So such rules succeed together. -/
theorem ok_iff {r r' : Except Fault Unit} (h : SameVerdict Eq r r') :
    r = .ok () ↔ r' = .ok () := by
  cases h with
  | ok => exact ⟨fun _ => rfl, fun _ => rfl⟩
  | error => exact ⟨nofun, nofun⟩

end SameVerdict

/-! ## The rules of typing -/

namespace Typing

variable {t t' u u' : Ty}

/-- Whether a type is demanded in vain does not depend on the order of parameters. -/
theorem demand_reordered (ht : t.Reordered t') (hu : u.Reordered u') :
    SameVerdict Eq (demand t u) (demand t' u') := by
  rw [demand, demand, hu.agrees_congr ht]
  exact .ite (.ok rfl) .error

/-- Whether two operands may be joined does not depend on the order of parameters. -/
theorem joinable_reordered (ht : t.Reordered t') (hu : u.Reordered u') :
    SameVerdict Eq (joinable t u) (joinable t' u') := by
  rw [joinable, joinable, ht.agrees_congr hu, ht.isArithmetic_eq]
  exact .ite (.ite (.ok rfl) .error) .error

/-- Whether two sides may be compared does not depend on the order of parameters. -/
theorem comparable_reordered {relop : String} (ht : t.Reordered t') (hu : u.Reordered u') :
    SameVerdict Eq (comparable t relop u) (comparable t' relop u') := by
  rw [comparable, comparable, ht.agrees_congr hu, ht.depth_eq]
  exact .ite (.ite .error (.ok rfl)) .error

/-- Indices take array levels away from both types alike. -/
theorem indexed_reordered {name : String} {indices : Nat} (ht : t.Reordered t') :
    SameVerdict Ty.Reordered (indexed name t indices) (indexed name t' indices) := by
  rw [indexed, indexed, ht.depth_eq]
  exact .ite (.ok (ht.withDepth _)) .error

/-- Entries that are reorderings of each other make array types that are. -/
theorem array_reordered {types types' : List Ty} (h : List.Forall₂ Ty.Reordered types types') :
    SameVerdict Ty.Reordered (array types) (array types') := by
  cases h with
  | nil => exact .ok (.prim Ty.anyName 1)
  | @cons first first' rest rest' hfirst hrest =>
    have hother : Option.Rel Ty.Reordered (rest.find? (!first.agrees ·))
        (rest'.find? (!first'.agrees ·)) :=
      find?_forall₂ hrest fun hu => by rw [hfirst.agrees_congr hu]
    rw [array_cons, array_cons]
    generalize rest.find? (!first.agrees ·) = other? at hother ⊢
    generalize rest'.find? (!first'.agrees ·) = other'? at hother ⊢
    cases hother with
    | none =>
      rw [hfirst.depth_eq]
      exact .ok (hfirst.withDepth _)
    | some _ => exact .error

/-- An argument is taken by the parameter of its name, wherever that stands. -/
theorem argument_reordered {ps qs : List Param} {name : String} (hparams : Params.Reordered ps qs)
    (hu : u.Reordered u') : SameVerdict Eq (argument ps name u) (argument qs name u') := by
  have hparam := hparams.find? name
  rw [argument, argument]
  generalize findParam? ps name = p? at hparam ⊢
  generalize findParam? qs name = q? at hparam ⊢
  cases hparam with
  | none => exact .ok rfl
  | some hpq =>
    show SameVerdict Eq (if _ then _ else _) (if _ then _ else _)
    rw [hu.agrees_congr hpq.type]
    exact .ite (.ok rfl) .error

end Typing

/-! ## Calls -/

/-- Related options are both there or both missing. -/
theorem isSome_eq_of_rel {α β : Type} {R : α → β → Prop} {a? : Option α} {b? : Option β}
    (h : Option.Rel R a? b?) : a?.isSome = b?.isSome := by
  cases h <;> rfl

/-- A call may name these arguments: each of them is a parameter, and each parameter without a
default is one of them. -/
def Params.Takes (params : List Param) (names : List String) : Prop :=
  (∀ name ∈ names, (findParam? params name).isSome = true) ∧
    ∀ p ∈ params, p.default?.isSome = true ∨ p.name ∈ names

/-- A call has a signature exactly if the callee is a function, no array of functions, whose
parameters take the names of the arguments. -/
theorem Typing.signature_eq_ok_iff {callee : String} {declared result : Ty} {args : List Arg}
    {params : List Param} :
    Typing.signature callee declared args = .ok (params, result) ↔
      declared = .fn params result 0 ∧ Params.Takes params (args.map Arg.name) := by
  constructor
  · intro h
    obtain ⟨rfl, hsupplied⟩ := Typing.signature_eq_ok h
    refine ⟨rfl, List.forall_mem_map.2 fun arg harg => ?_, fun p hp => ?_⟩
    · -- The rule looks for an argument without a parameter, and has found none.
      unfold Typing.signature at h
      simp only [Ty.asFunction?] at h
      split at h
      · cases h
      · next hnone =>
        exact Option.isSome_iff_ne_none.2 fun hparam =>
          List.find?_eq_none.1 hnone arg harg (Option.isNone_iff_eq_none.2 hparam)
    · refine (hsupplied p hp).imp_right ?_
      rintro ⟨arg, harg, hname⟩
      exact List.mem_map.2 ⟨arg, harg, hname⟩
  · rintro ⟨rfl, hnames, hparams⟩
    -- Both searches of the rule come to nothing.
    have hexpected : args.find? (fun arg => (findParam? params arg.name).isNone) = none :=
      List.find?_eq_none.2 fun arg harg => by
        have harg := hnames arg.name (List.mem_map_of_mem harg)
        simp [Option.isSome_iff_ne_none.1 harg]
    have hsupplied : params.find?
        (fun p => p.default?.isNone && !args.any (·.name == p.name)) = none :=
      List.find?_eq_none.2 fun p hp => by
        obtain hdefault | hmem := hparams p hp
        · simp [Option.isSome_iff_ne_none.1 hdefault]
        · obtain ⟨arg, harg, hname⟩ := List.mem_map.1 hmem
          have hany : args.any (·.name == p.name) = true :=
            List.any_eq_true.2 ⟨arg, harg, beq_iff_eq.2 hname⟩
          simp [hany]
    unfold Typing.signature
    simp only [Ty.asFunction?, hexpected, hsupplied]

/-- Reordered parameters take the same names. -/
theorem Params.Reordered.takes_iff {ps qs : List Param} (h : Params.Reordered ps qs)
    (names : List String) : Params.Takes ps names ↔ Params.Takes qs names := by
  refine and_congr (forall₂_congr fun name _ => ?_) (h.covers.forall_iff fun p q hpq => ?_)
  · rw [isSome_eq_of_rel (h.find? name)]
  · obtain ⟨_, _, d⟩ := p
    obtain ⟨_, _, e⟩ := q
    obtain ⟨rfl, -, hdefault⟩ := hpq
    cases hdefault <;> rfl

/-- Arguments keep their names and their order. -/
theorem Args.Reordered.names_eq : ∀ {as bs : List Arg}, Args.Reordered as bs →
    as.map Arg.name = bs.map Arg.name
  | _, _, .nil => rfl
  | _, _, .cons _ hrest => congrArg (_ :: ·) hrest.names_eq

/-- What a call knows of its callee: parameters and result. -/
def SignatureReordered (signature signature' : List Param × Ty) : Prop :=
  Params.Reordered signature.1 signature'.1 ∧ signature.2.Reordered signature'.2

/-- A call has reordered signatures under reordered types of the callee. -/
theorem Typing.signature_reordered {callee : String} {t t' : Ty} {args args' : List Arg}
    (ht : t.Reordered t') (hargs : Args.Reordered args args') :
    SameVerdict SignatureReordered (signature callee t args) (signature callee t' args') := by
  refine .of_ok ?_ ?_
  · rintro ⟨params, result⟩ hsignature
    obtain ⟨rfl, htakes⟩ := signature_eq_ok_iff.1 hsignature
    cases ht with
    | fn hparams hresult =>
      rw [hparams.takes_iff, hargs.names_eq] at htakes
      exact ⟨_, signature_eq_ok_iff.2 ⟨rfl, htakes⟩, hparams, hresult⟩
  · rintro ⟨params', result'⟩ hsignature
    obtain ⟨rfl, htakes⟩ := signature_eq_ok_iff.1 hsignature
    cases ht with
    | fn hparams hresult =>
      rw [← hparams.takes_iff, ← hargs.names_eq] at htakes
      exact ⟨_, signature_eq_ok_iff.2 ⟨rfl, htakes⟩⟩

/-! ## Surroundings -/

/-- Both declare the same names, in the block and around it, with types that are reorderings of each
other, and their results are. -/
structure Env.Reordered (env other : Env) : Prop where
  declared : ∀ name, Option.Rel Ty.Reordered (env.scope.find? name) (other.scope.find? name)
  meaning : ∀ name, Option.Rel Ty.Reordered (env.find? name) (other.find? name)
  result : Option.Rel Ty.Reordered env.result? other.result?

/-- Looking a name up is a search for its first declaration. -/
theorem Scope.find?_eq (scope : Scope) (name : String) :
    scope.find? name = (List.find? (·.1 == name) scope).map Prod.snd := by
  induction scope with
  | nil => rfl
  | cons declaration scope ih =>
    obtain ⟨declared, type⟩ := declaration
    rw [Scope.find?_cons, List.find?_cons]
    by_cases hname : name = declared
    · rw [if_pos hname, beq_iff_eq.2 hname.symm]
      rfl
    · rw [if_neg hname, beq_eq_false_iff_ne.2 (Ne.symm hname)]
      exact ih

/-- In the scope of a body a name means the parameter of that name. The scope holds them in reverse,
which distinct names do not notice. -/
theorem Scope.find?_parameters {params : List Param} {name : String}
    (hdistinct : (params.map Param.name).Nodup) :
    Scope.find? (params.map Param.declaration).reverse name =
      (findParam? params name).map Param.type := by
  rw [findParam?_perm hdistinct (List.reverse_perm params).symm, Scope.find?_eq,
    ← List.map_reverse, List.find?_map, Option.map_map]
  rfl

/-- Alternatives are related if both choices are. -/
theorem optionRel_or {α β : Type} {R : α → β → Prop} {a c : Option α} {b d : Option β}
    (hab : Option.Rel R a b) (hcd : Option.Rel R c d) : Option.Rel R (a.or c) (b.or d) := by
  cases hab with
  | none => exact hcd
  | some h => exact .some h

/-- A type that is found is a reordering of itself. -/
theorem optionRel_refl (t? : Option Ty) : Option.Rel Ty.Reordered t? t? := by
  cases t? with
  | none => exact .none
  | some t => exact .some (.refl t)

namespace Env.Reordered

variable {env other : Env}

/-- Surroundings are reorderings of themselves. -/
theorem refl (env : Env) : env.Reordered env :=
  ⟨fun _ => optionRel_refl _, fun _ => optionRel_refl _, optionRel_refl _⟩

/-- A name means reordered types in reordered surroundings. -/
theorem lookup (h : env.Reordered other) (name : String) :
    SameVerdict Ty.Reordered (env.lookup name) (other.lookup name) := by
  have hmeaning := h.meaning name
  rw [find?, find?] at hmeaning
  rw [Env.lookup, Env.lookup]
  generalize env.scopes.findSome? (·.find? name) = t? at hmeaning ⊢
  generalize other.scopes.findSome? (·.find? name) = u? at hmeaning ⊢
  cases hmeaning with
  | none => exact .error
  | some htype => exact .ok htype

/-- Bodies in reordered surroundings are asked for reordered results. -/
theorem resultType (h : env.Reordered other) :
    SameVerdict Ty.Reordered env.resultType other.resultType := by
  have hresult := h.result
  rw [Env.resultType, Env.resultType]
  generalize env.result? = t? at hresult ⊢
  generalize other.result? = u? at hresult ⊢
  cases hresult with
  | none => exact .error
  | some htype => exact .ok htype

/-- A name can be declared on both sides or on neither. -/
theorem vacant (h : env.Reordered other) (name : String) :
    SameVerdict Eq (env.vacant name) (other.vacant name) := by
  rw [Env.vacant, Env.vacant, isSome_eq_of_rel (h.declared name)]
  exact .ite .error (.ok rfl)

theorem block (h : env.Reordered other) : env.block.Reordered other.block :=
  ⟨fun _ => .none, h.meaning, h.result⟩

/-- A declaration may have reordered types on both sides. -/
theorem extend (h : env.Reordered other) {name : String} {t u : Ty} (htype : t.Reordered u) :
    (env.extend (some (name, t))).Reordered (other.extend (some (name, u))) := by
  have hadded : ∀ m, Option.Rel Ty.Reordered (Scope.find? [(name, t)] m)
      (Scope.find? [(name, u)] m) := by
    intro m
    rw [Scope.find?_cons, Scope.find?_cons]
    split
    · exact .some htype
    · exact .none
  refine ⟨fun m => ?_, fun m => ?_, h.result⟩
  · rw [Env.extend, Env.extend, Scope.find?_cons, Scope.find?_cons]
    split
    · exact .some htype
    · exact h.declared m
  · rw [find?_extend, find?_extend]
    exact optionRel_or (hadded m) (h.meaning m)

/-- Behind reordered statements, the surroundings are reordered again. -/
theorem behind (h : env.Reordered other) : ∀ {s s' : Stmt}, s.Reordered s' →
    (env.extend s.declaration?).Reordered (other.extend s'.declaration?)
  | _, _, .letVar htype _ => h.extend htype
  | _, _, .letFun hparams hresult _ => h.extend (.fn hparams hresult)
  | _, _, .ifThen .. | _, _, .ifElse .. | _, _, .loop .. | _, _, .assign .. | _, _, .ret ..
  | _, _, .call .. => h

/-- Bodies of reordered parameters are in reordered surroundings, because different names are found
in any order. -/
theorem inside (h : env.Reordered other) {ps qs : List Param} {r s : Ty}
    (hparams : Params.Reordered ps qs) (hresult : r.Reordered s)
    (hdistinct : (ps.map Param.name).Nodup) :
    (env.inside ps r).Reordered (other.inside qs s) := by
  have hscope : ∀ name, Option.Rel Ty.Reordered
      (Scope.find? (ps.map Param.declaration).reverse name)
      (Scope.find? (qs.map Param.declaration).reverse name) := by
    intro name
    rw [Scope.find?_parameters hdistinct, Scope.find?_parameters (hparams.nodup_iff.1 hdistinct)]
    have hparam := hparams.find? name
    generalize findParam? ps name = p? at hparam ⊢
    generalize findParam? qs name = q? at hparam ⊢
    cases hparam with
    | none => exact .none
    | some hpq => exact .some hpq.type
  refine ⟨hscope, fun name => ?_, .some hresult⟩
  rw [find?_inside, find?_inside]
  exact optionRel_or (hscope name) (h.meaning name)

/-- A body is entered on both sides, or a repeated parameter name stops both. -/
theorem body (h : env.Reordered other) {ps qs : List Param} {r s : Ty}
    (hparams : Params.Reordered ps qs) (hresult : r.Reordered s) :
    SameVerdict Env.Reordered (env.body ps r) (other.body qs s) := by
  refine .of_ok (fun inner hinner => ?_) fun inner hinner => ?_
  · obtain ⟨hdistinct, rfl⟩ := Env.body_eq_ok_iff.1 hinner
    exact ⟨_, Env.body_eq_ok_iff.2 ⟨hparams.nodup_iff.1 hdistinct, rfl⟩,
      h.inside hparams hresult hdistinct⟩
  · obtain ⟨hdistinct, rfl⟩ := Env.body_eq_ok_iff.1 hinner
    exact ⟨_, Env.body_eq_ok_iff.2 ⟨hparams.nodup_iff.2 hdistinct, rfl⟩⟩

end Env.Reordered

/-- Closures are accepted for their defaults, and for the names of their parameters. -/
theorem Params.checkIn_reordered {ps qs : List Param} {env other : Env}
    (hparams : Params.Reordered ps qs)
    (hdefaults : Covers (fun p q => SameVerdict Eq (Default.checkIn env p.type p.default?)
      (Default.checkIn other q.type q.default?)) ps qs) :
    SameVerdict Eq (Params.checkIn env [] ps) (Params.checkIn other [] qs) := by
  refine .of_iff ?_
  rw [Params.checkIn_eq_ok_iff, Params.checkIn_eq_ok_iff, hparams.nodup_iff,
    hdefaults.forall_iff fun _ _ h => h.ok_iff]
  exact and_congr_right fun _ => and_congr_left fun _ => ⟨fun _ => nofun, fun _ => nofun⟩

/-! ## Trees -/

/-- Reordered expressions are as many, so indices take the same levels away. -/
theorem Exprs.Reordered.length_eq : ∀ {es fs : List Expr}, Exprs.Reordered es fs →
    es.length = fs.length
  | _, _, .nil => rfl
  | _, _, .cons _ hrest => congrArg Nat.succ hrest.length_eq

mutual

/-- **Expressions**: a reordered expression has a reordered type, or both have a fault. The
induction is on the relation, with one case for each form of tree. -/
theorem Expr.Reordered.typeIn : ∀ {e f : Expr}, e.Reordered f → ∀ {env other : Env},
    env.Reordered other → SameVerdict Ty.Reordered (e.typeIn env) (f.typeIn other)
  | _, _, .cond h, _, _, henv => by
    rw [Expr.typeIn, Expr.typeIn]
    exact h.typeIn henv
  | _, _, .add h, _, _, henv => by
    rw [Expr.typeIn, Expr.typeIn]
    exact h.typeIn henv
  | _, _, .array h, _, _, henv => by
    rw [Expr.typeIn, Expr.typeIn]
    exact .bind (h.typesIn henv) Typing.array_reordered
  | _, _, .closure hparams hresult hbody, _, _, henv => by
    rw [Expr.typeIn, Expr.typeIn]
    refine .bind (Params.checkIn_reordered hparams (hparams.defaults henv)) fun _ => ?_
    refine .bind (henv.body hparams hresult) fun hinner => ?_
    exact .bind (hbody.checkIn hinner) fun _ => .ok (.fn hparams hresult)

theorem Exprs.Reordered.typesIn : ∀ {es fs : List Expr}, Exprs.Reordered es fs →
    ∀ {env other : Env}, env.Reordered other →
      SameVerdict (List.Forall₂ Ty.Reordered) (Exprs.typesIn env es) (Exprs.typesIn other fs)
  | _, _, .nil, _, _, _ => by
    rw [Exprs.typesIn, Exprs.typesIn]
    exact .ok .nil
  | _, _, .cons hfirst hrest, _, _, henv => by
    rw [Exprs.typesIn, Exprs.typesIn]
    refine .bind (hfirst.typeIn henv) fun htype => ?_
    exact .bind (hrest.typesIn henv) fun htypes => .ok (.cons htype htypes)

/-- Each default of a list has the same verdict as one of the reordered list. -/
theorem Params.Reordered.defaults : ∀ {ps qs : List Param}, Params.Reordered ps qs →
    ∀ {env other : Env}, env.Reordered other →
      Covers (fun p q => SameVerdict Eq (Default.checkIn env p.type p.default?)
        (Default.checkIn other q.type q.default?)) ps qs
  | _, _, .inOrder hmatched, _, _, henv => .of_forall₂ (hmatched.defaults henv)
  | _, _, .permuted _ hmatched hperm, _, _, henv =>
    (Covers.of_forall₂ (hmatched.defaults henv)).perm hperm

/-- Matching defaults have the same verdict, place by place. -/
theorem Params.Matched.defaults : ∀ {ps qs : List Param}, Params.Matched ps qs →
    ∀ {env other : Env}, env.Reordered other →
      List.Forall₂ (fun p q => SameVerdict Eq (Default.checkIn env p.type p.default?)
        (Default.checkIn other q.type q.default?)) ps qs
  | _, _, .nil, _, _, _ => .nil
  | _, _, .cons htype hdefault hrest, _, _, henv =>
    .cons (hdefault.checkIn htype henv) (hrest.defaults henv)

/-- Reordered defaults have the same verdict against reordered types. -/
theorem Default.Reordered.checkIn : ∀ {d e : Option Expr}, Default.Reordered d e →
    ∀ {t u : Ty}, t.Reordered u → ∀ {env other : Env}, env.Reordered other →
      SameVerdict Eq (Default.checkIn env t d) (Default.checkIn other u e)
  | _, _, .none, _, _, _, _, _, _ => by
    rw [Default.checkIn, Default.checkIn]
    exact .ok rfl
  | _, _, .some hvalue, _, _, htype, _, _, henv => by
    rw [Default.checkIn, Default.checkIn]
    exact .bind (hvalue.typeIn henv) fun hreceived => Typing.demand_reordered htype hreceived

theorem Condition.Reordered.typeIn : ∀ {c d : Condition}, c.Reordered d → ∀ {env other : Env},
    env.Reordered other → SameVerdict Ty.Reordered (c.typeIn env) (d.typeIn other)
  | _, _, .single hleft hright, _, _, henv => by
    rw [Condition.typeIn, Condition.typeIn]
    refine .bind (hleft.typeIn henv) fun hl => .bind (hright.typeIn henv) fun hr => ?_
    exact .bind (Typing.comparable_reordered hl hr) fun _ => .ok (.refl .bool)
  | _, _, .chain hleft hright hnext, _, _, henv => by
    rw [Condition.typeIn, Condition.typeIn]
    refine .bind (hleft.typeIn henv) fun hl => .bind (hright.typeIn henv) fun hr => ?_
    exact .bind (Typing.comparable_reordered hl hr) fun _ => hnext.typeIn henv

theorem AddExpr.Reordered.typeIn : ∀ {a b : AddExpr}, a.Reordered b → ∀ {env other : Env},
    env.Reordered other → SameVerdict Ty.Reordered (a.typeIn env) (b.typeIn other)
  | _, _, .single h, _, _, henv => by
    rw [AddExpr.typeIn, AddExpr.typeIn]
    exact h.typeIn henv
  | _, _, .chain hhead htail, _, _, henv => by
    rw [AddExpr.typeIn, AddExpr.typeIn]
    refine .bind (hhead.typeIn henv) fun hh => .bind (htail.typeIn henv) fun ht => ?_
    exact .bind (Typing.joinable_reordered hh ht) fun _ => .ok hh

theorem Term.Reordered.typeIn : ∀ {t u : Term}, t.Reordered u → ∀ {env other : Env},
    env.Reordered other → SameVerdict Ty.Reordered (t.typeIn env) (u.typeIn other)
  | _, _, .single h, _, _, henv => by
    rw [Term.typeIn, Term.typeIn]
    exact h.typeIn henv
  | _, _, .chain hhead htail, _, _, henv => by
    rw [Term.typeIn, Term.typeIn]
    refine .bind (hhead.typeIn henv) fun hh => .bind (htail.typeIn henv) fun ht => ?_
    exact .bind (Typing.joinable_reordered hh ht) fun _ => .ok hh

/-- Variables lose as many levels, and calls pass reordered arguments to reordered parameters. -/
theorem Factor.Reordered.typeIn : ∀ {f g : Factor}, f.Reordered g → ∀ {env other : Env},
    env.Reordered other → SameVerdict Ty.Reordered (f.typeIn env) (g.typeIn other)
  | _, _, .var hindices, _, _, henv => by
    rw [Factor.typeIn, Factor.typeIn, hindices.length_eq]
    exact .bind (henv.lookup _) Typing.indexed_reordered
  | _, _, .call hargs, _, _, henv => by
    rw [Factor.typeIn, Factor.typeIn]
    refine .bind (henv.lookup _) fun hdeclared => ?_
    refine .bind (Typing.signature_reordered hdeclared hargs) fun ⟨hparams, hresult⟩ => ?_
    exact .bind (hargs.checkIn hparams henv) fun _ => .ok hresult
  | _, _, .int _, _, _, _ => by
    rw [Factor.typeIn, Factor.typeIn]
    exact .ok (.refl .int)
  | _, _, .float _, _, _, _ => by
    rw [Factor.typeIn, Factor.typeIn]
    exact .ok (.refl .float)
  | _, _, .paren hinner, _, _, henv => by
    rw [Factor.typeIn, Factor.typeIn]
    exact hinner.typeIn henv

/-- Arguments have the same verdict against reordered parameters. -/
theorem Args.Reordered.checkIn : ∀ {as bs : List Arg}, Args.Reordered as bs →
    ∀ {ps qs : List Param}, Params.Reordered ps qs → ∀ {env other : Env}, env.Reordered other →
      SameVerdict Eq (Args.checkIn env ps as) (Args.checkIn other qs bs)
  | _, _, .nil, _, _, _, _, _, _ => by
    rw [Args.checkIn, Args.checkIn]
    exact .ok rfl
  | _, _, .cons hvalue hrest, _, _, hparams, _, _, henv => by
    rw [Args.checkIn, Args.checkIn]
    refine .bind (hvalue.typeIn henv) fun hreceived => ?_
    exact .bind (Typing.argument_reordered hparams hreceived) fun _ => hrest.checkIn hparams henv

/-- **Statements**: reordered statements have the same verdict. -/
theorem Stmt.Reordered.checkIn : ∀ {s s' : Stmt}, s.Reordered s' → ∀ {env other : Env},
    env.Reordered other → SameVerdict Eq (s.checkIn env) (s'.checkIn other)
  | _, _, .ifThen hcondition hbody, _, _, henv => by
    rw [Stmt.checkIn, Stmt.checkIn]
    exact .bind (hcondition.typeIn henv) fun _ => hbody.checkIn henv.block
  | _, _, .ifElse hcondition hbody hotherwise, _, _, henv => by
    rw [Stmt.checkIn, Stmt.checkIn]
    refine .bind (hcondition.typeIn henv) fun _ => ?_
    exact .bind (hbody.checkIn henv.block) fun _ => hotherwise.checkIn henv.block
  | _, _, .loop hcondition hbody, _, _, henv => by
    rw [Stmt.checkIn, Stmt.checkIn]
    exact .bind (hcondition.typeIn henv) fun _ => hbody.checkIn henv.block
  | _, _, .assign hvalue, _, _, henv => by
    rw [Stmt.checkIn, Stmt.checkIn]
    refine .bind (henv.lookup _) fun hexpected => ?_
    exact .bind (hvalue.typeIn henv) fun hreceived => Typing.demand_reordered hexpected hreceived
  | _, _, .ret hvalue, _, _, henv => by
    rw [Stmt.checkIn, Stmt.checkIn]
    refine .bind henv.resultType fun hexpected => ?_
    exact .bind (hvalue.typeIn henv) fun hreceived => Typing.demand_reordered hexpected hreceived
  | _, _, .letVar htype hvalue, _, _, henv => by
    rw [Stmt.checkIn, Stmt.checkIn]
    refine .bind (hvalue.typeIn henv) fun hreceived => ?_
    exact .bind (Typing.demand_reordered htype hreceived) fun _ => henv.vacant _
  | _, _, .letFun hparams hresult hbody, _, _, henv => by
    rw [Stmt.checkIn, Stmt.checkIn]
    refine .bind (henv.body hparams hresult) fun hinner => ?_
    exact .bind (hbody.checkIn hinner) fun _ => henv.vacant _
  | _, _, .call hargs, _, _, henv => by
    rw [Stmt.checkIn, Stmt.checkIn]
    refine .bind (henv.lookup _) fun hdeclared => ?_
    refine .bind (Typing.signature_reordered hdeclared hargs) fun ⟨hparams, _⟩ => ?_
    exact hargs.checkIn hparams henv

/-- Blocks of reordered statements have the same verdict. -/
theorem Stmts.Reordered.checkIn : ∀ {body other : List Stmt}, Stmts.Reordered body other →
    ∀ {env env' : Env}, env.Reordered env' →
      SameVerdict Eq (Stmts.checkIn env body) (Stmts.checkIn env' other)
  | _, _, .nil, _, _, _ => by
    rw [Stmts.checkIn, Stmts.checkIn]
    exact .ok rfl
  | _, _, .cons hfirst hrest, _, _, henv => by
    rw [Stmts.checkIn, Stmts.checkIn]
    exact .bind (hfirst.checkIn henv) fun _ => hrest.checkIn (henv.behind hfirst)

end

/-! ## Programs -/

/-- A program is accepted exactly if the lexical rules find no fault. -/
theorem Program.accepted_iff (p : Program) :
    (∃ c, p.check = .ok c) ↔ p.checkLexically = .ok () := by
  rw [p.check_eq]
  cases p.checkLexically with
  | ok _ => exact ⟨fun _ => rfl, fun _ => ⟨_, rfl⟩⟩
  | error fault => exact ⟨nofun, nofun⟩

/-- **The order of parameters does not matter**: a program is accepted if and only if it is accepted
with lists of distinct parameters permuted, at any places and at any depth. -/
theorem Program.check_reordered {p q : Program} (h : p.Reordered q) :
    (∃ c, p.check = .ok c) ↔ ∃ c, q.check = .ok c := by
  have hverdict : SameVerdict Eq p.checkLexically q.checkLexically :=
    Stmts.Reordered.checkIn h (.refl .initial)
  rw [p.accepted_iff, q.accepted_iff]
  exact hverdict.ok_iff

/-- `k: (x: int, y: float): bool` and `a: int`, in this order. -/
def callbackFirst : List Param :=
  [⟨"k", .fn [⟨"x", .int, none⟩, ⟨"y", .float, none⟩] .bool 0, none⟩, ⟨"a", .int, none⟩]

/-- `a: int` and `k: (y: float, x: int): bool`, in this order. -/
def callbackLast : List Param :=
  [⟨"a", .int, none⟩, ⟨"k", .fn [⟨"y", .float, none⟩, ⟨"x", .int, none⟩] .bool 0, none⟩]

/-- A function with these parameters, and a variable for it whose type lists them callback first:
`fun f(...): int <- begin return a; end let g : (k: ..., a: int): int <- f;`. -/
def higherOrder (params : List Param) : Program := ⟨[
  .letFun "f" params .int [.ret (Factor.var "a" []).toExpr],
  .letVar "g" (.fn callbackFirst .int 0) (Factor.var "f" []).toExpr]⟩

/-- The two lists permute the outer parameters and those of the callback at once. -/
theorem callback_reordered : Params.Reordered callbackFirst callbackLast := by
  have hcallback : Params.Reordered [⟨"x", .int, none⟩, ⟨"y", .float, none⟩]
      [⟨"y", .float, none⟩, ⟨"x", .int, none⟩] :=
    .permuted (by decide) (Params.Matched.refl _) (.swap ..)
  exact .permuted (by decide)
    (.cons (.fn hcallback (.refl .bool)) .none (Params.Matched.refl _)) (.swap ..)

/-- The callback may come first or last, in a type that is written the other way round as well. -/
theorem higherOrder_accepted :
    (higherOrder callbackFirst).Reordered (higherOrder callbackLast) ∧
      (∃ c, (higherOrder callbackFirst).check = .ok c) ∧
      ∃ c, (higherOrder callbackLast).check = .ok c := by
  have hreordered : (higherOrder callbackFirst).Reordered (higherOrder callbackLast) :=
    .cons (.letFun callback_reordered (.refl .int) (Stmts.Reordered.refl _))
      (Stmts.Reordered.refl _)
  have haccepted : ∃ c, (higherOrder callbackFirst).check = .ok c := ⟨_, rfl⟩
  exact ⟨hreordered, haccepted, (Program.check_reordered hreordered).1 haccepted⟩

end FrontEnd
