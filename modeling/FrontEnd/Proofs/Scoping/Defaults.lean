import FrontEnd.Proofs.Scoping.Sites

/-!
# Defaults

A call may leave out the parameters that have a default. Of a closure the defaults are checked where
the closure stands, in front of its parameters; of a declared function they are not looked at.

- `Env.DefaultsFit`: every default of some parameters has the type that its parameter declares.
- `Env.Supplies`: a call names every parameter without a default.
- `Program.defaults_fit`: in an accepted program the defaults of every checked closure fit, and
  every checked call supplies what it has to.
-/

namespace FrontEnd

open Check

/-- Every default of the parameters is accepted in these surroundings, with a type that counts as
equal to the one declared. -/
def Env.DefaultsFit (env : Env) (params : List Param) : Prop :=
  ∀ p ∈ params, ∀ value, p.default? = some value →
    ∃ type, (∀ c : Context, c.env = env → value.check c = .ok type c) ∧ type.agrees p.type = true

/-- The callee is a function here, and each of its parameters has a default or is named by an
argument. -/
def Env.Supplies (env : Env) (callee : String) (args : List Arg) : Prop :=
  ∃ params result, env.lookup callee = .ok (.fn params result 0) ∧
    ∀ p ∈ params, p.default?.isSome = true ∨ ∃ arg ∈ args, arg.name = p.name

/-! ## Closures -/

/-- A type that meets a demand agrees with the type demanded. -/
theorem Typing.agrees_of_demand {expected received : Ty}
    (h : Typing.demand expected received = .ok ()) : received.agrees expected = true := by
  unfold Typing.demand at h
  split at h
  · assumption
  · cases h

/-- Parameters of a closure that are accepted have defaults of their types. -/
theorem Params.defaultsFit {params : List Param} {env : Env} {seen : List String}
    (h : Params.checkIn env seen params = .ok ()) : env.DefaultsFit params := by
  induction params generalizing seen with
  | nil => exact fun _ hp => nomatch hp
  | cons p params ih =>
    obtain ⟨name, type, default?⟩ := p
    rw [Params.checkIn] at h
    obtain ⟨_, -, h⟩ := exists_ok_of_bind h
    obtain ⟨_, hdefault, h⟩ := exists_ok_of_bind h
    refine List.forall_mem_cons.2 ⟨?_, ih h⟩
    rintro value rfl
    rw [Default.checkIn] at hdefault
    obtain ⟨received, hvalue, hdemand⟩ := exists_ok_of_bind hdefault
    refine ⟨received, ?_, Typing.agrees_of_demand hdemand⟩
    rintro c rfl
    -- The check itself answers what the rule does, and leaves the context alone.
    have hkeeps := value.check_keeps c
    rw [hvalue] at hkeeps
    exact hkeeps

/-- An accepted closure has defaults of the types of its parameters. -/
theorem Expr.closure_defaultsFit {env : Env} {params : List Param} {result type : Ty}
    {body : List Stmt} (h : (Expr.closure params result body).typeIn env = .ok type) :
    env.DefaultsFit params := by
  rw [Expr.typeIn] at h
  obtain ⟨_, hparams, -⟩ := exists_ok_of_bind h
  exact Params.defaultsFit hparams

/-! ## Calls -/

/-- Only a function type without array levels can be called. -/
theorem Ty.eq_of_asFunction? {declared result : Ty} {params : List Param}
    (h : declared.asFunction? = some (params, result)) : declared = .fn params result 0 := by
  unfold Ty.asFunction? at h
  split at h
  · cases h
    rfl
  · cases h

/-- A signature is that of the callee, and a parameter that no argument names has a default. -/
theorem Typing.signature_eq_ok {callee : String} {declared result : Ty} {args : List Arg}
    {params : List Param} (h : Typing.signature callee declared args = .ok (params, result)) :
    declared = .fn params result 0 ∧
      ∀ p ∈ params, p.default?.isSome = true ∨ ∃ arg ∈ args, arg.name = p.name := by
  unfold Typing.signature at h
  split at h
  · cases h
  · next ps r hfunction =>
    split at h
    · cases h
    · split at h
      · cases h
      · next hmissing =>
        cases h
        refine ⟨Ty.eq_of_asFunction? hfunction, fun p hp => ?_⟩
        have hp := List.find?_eq_none.1 hmissing p hp
        by_cases hdefault : p.default?.isSome = true
        · exact .inl hdefault
        · right
          simpa [Option.not_isSome_iff_eq_none.1 hdefault] using hp

/-- A call with a signature supplies every parameter without a default. -/
theorem Env.supplies_of_signature {env : Env} {callee : String} {declared : Ty} {args : List Arg}
    {signature : List Param × Ty} (hlookup : env.lookup callee = .ok declared)
    (hsignature : Typing.signature callee declared args = .ok signature) :
    env.Supplies callee args := by
  obtain ⟨params, result⟩ := signature
  obtain ⟨rfl, hparams⟩ := Typing.signature_eq_ok hsignature
  exact ⟨params, result, hlookup, hparams⟩

/-- An accepted call in an expression supplies what its callee needs. -/
theorem Factor.call_supplies {env : Env} {callee : String} {args : List Arg} {type : Ty}
    (h : (Factor.call callee args).typeIn env = .ok type) : env.Supplies callee args := by
  rw [Factor.typeIn] at h
  obtain ⟨declared, hlookup, h⟩ := exists_ok_of_bind h
  obtain ⟨signature, hsignature, -⟩ := exists_ok_of_bind h
  exact Env.supplies_of_signature hlookup hsignature

/-- An accepted call as a statement supplies what its callee needs. -/
theorem Stmt.call_supplies {env : Env} {callee : String} {args : List Arg}
    (h : (Stmt.call callee args).checkIn env = .ok ()) : env.Supplies callee args := by
  rw [Stmt.checkIn] at h
  obtain ⟨declared, hlookup, h⟩ := exists_ok_of_bind h
  obtain ⟨signature, hsignature, -⟩ := exists_ok_of_bind h
  exact Env.supplies_of_signature hlookup hsignature

/-! ## Accepted programs -/

/-- **Defaults**: in an accepted program every default of a checked closure has, where the closure
stands, the type that its parameter declares, and every checked call leaves out only parameters that
have a default in the declared type of the callee. -/
theorem Program.defaults_fit {program : Program} {c : Context} (h : program.check = .ok c) :
    (∀ env params result body,
      ⟨env, .expr (.closure params result body)⟩ ∈ program.sites → env.DefaultsFit params) ∧
    ∀ env callee args,
      ⟨env, .factor (.call callee args)⟩ ∈ program.sites ∨
        ⟨env, .stmt (.call callee args)⟩ ∈ program.sites → env.Supplies callee args := by
  have haccepted := Program.sites_accepted h
  refine ⟨fun env params result body hsite => ?_, fun env callee args hsite => ?_⟩
  · obtain ⟨type, htype⟩ := haccepted _ hsite
    exact Expr.closure_defaultsFit htype
  · obtain hsite | hsite := hsite
    · obtain ⟨type, htype⟩ := haccepted _ hsite
      exact Factor.call_supplies htype
    · exact Stmt.call_supplies (haccepted _ hsite)

/-- The type `(a: int <- 1): int`. -/
def unaryType : Ty := .fn [⟨"a", .int, some (Factor.int 1).toExpr⟩] .int 0

/-- A closure with a default, and a call that leaves its parameter out:
`let g : (a: int <- 1): int <- (a: int <- 2): int <- { return a; }; let r : int <- g();`. -/
def closureDefault : Program := ⟨[
  .letVar "g" unaryType
    (.closure [⟨"a", .int, some (Factor.int 2).toExpr⟩] .int [.ret (Factor.var "a" []).toExpr]),
  .letVar "r" .int (Factor.call "g" []).toExpr]⟩

theorem closureDefault_fits :
    closureDefault.check = .ok closureDefault.finalContext ∧
      Env.initial.DefaultsFit [⟨"a", .int, some (Factor.int 2).toExpr⟩] ∧
      (Env.initial.extend (some ("g", unaryType))).Supplies "g" [] := by
  have haccepted : closureDefault.check = .ok closureDefault.finalContext := rfl
  have hfits := Program.defaults_fit haccepted
  refine ⟨haccepted, hfits.1 _ _ .int [.ret (Factor.var "a" []).toExpr] ?_, hfits.2 _ _ _ (.inl ?_)⟩
  · exact List.mem_of_getElem? (i := 1) rfl
  · exact List.mem_of_getElem? (i := 15) rfl

/-- `1 < 2`, a truth value. -/
def oneLessTwo : Expr :=
  .cond (.single (.single (.single (.int 1))) "<" (.single (.single (.int 2))))

/-- A declared function whose default is no integer, and a call that leaves it in place:
`fun f(a: int <- 1 < 2): int <- begin return a; end let r : int <- f();`. -/
def functionDefault : Program := ⟨[
  .letFun "f" [⟨"a", .int, some oneLessTwo⟩] .int [.ret (Factor.var "a" []).toExpr],
  .letVar "r" .int (Factor.call "f" []).toExpr]⟩

/-- The defaults of a declared function need not fit. -/
theorem functionDefault_unfit :
    functionDefault.check = .ok functionDefault.finalContext ∧
      ⟨.initial, .stmt (.letFun "f" [⟨"a", .int, some oneLessTwo⟩] .int
        [.ret (Factor.var "a" []).toExpr])⟩ ∈ functionDefault.sites ∧
      ¬ Env.initial.DefaultsFit [⟨"a", .int, some oneLessTwo⟩] := by
  refine ⟨rfl, .head _, fun hfit => ?_⟩
  obtain ⟨type, hcheck, hagrees⟩ := hfit _ (.head _) oneLessTwo rfl
  have hrun : oneLessTwo.check .initial = .ok .bool .initial := rfl
  cases hrun.symm.trans (hcheck .initial rfl)
  cases hagrees

end FrontEnd
