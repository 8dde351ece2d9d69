import FrontEnd.Proofs.Parameters.Order

/-!
# Calls

Arguments are bound to parameters by name, and the order in which they are written does not matter:
a call is accepted by what its arguments are, taken one by one. This is so because each of them is
checked in the context of the call, whatever stands in front of it.

- `Context.AcceptsCall`: what a callee and arguments have to fulfil in a context.
- `Args.checkIn_eq_ok_iff`: arguments are accepted together if each of them is.
- `Factor.call_eq_ok_iff`, `Stmt.call_eq_ok_iff`: when the lexical rules accept a call.
- `keyword_calls`: a check of a call succeeds exactly if the context accepts it, and so in front of
  any permutation of the arguments.
-/

namespace FrontEnd

open Check

/-- In this context the callee is a function with this result. Every argument names a parameter,
every parameter without a default is named by an argument, and every argument has a value of a type
that agrees with the type of the first parameter of its name. -/
def Context.AcceptsCall (c : Context) (callee : String) (args : List Arg) (result : Ty) : Prop :=
  ∃ params, c.find? callee = some (.fn params result 0) ∧
    (∀ arg ∈ args, ∃ p ∈ params, p.name = arg.name) ∧
    (∀ p ∈ params, p.default? = none → ∃ arg ∈ args, arg.name = p.name) ∧
    ∀ arg ∈ args, ∃ p received, findParam? params arg.name = some p ∧
      arg.value.check c = .ok received c ∧ received.agrees p.type = true

/-- The order of the arguments does not matter. -/
theorem Context.AcceptsCall.perm {c : Context} {callee : String} {args args' : List Arg}
    {result : Ty} (h : c.AcceptsCall callee args result) (hperm : args.Perm args') :
    c.AcceptsCall callee args' result := by
  obtain ⟨params, hcallee, hnamed, hsupplied, htyped⟩ := h
  refine ⟨params, hcallee, fun arg harg => ?_, fun p hp hdefault => ?_, fun arg harg => ?_⟩
  · exact hnamed arg (hperm.mem_iff.2 harg)
  · obtain ⟨arg, harg, hname⟩ := hsupplied p hp hdefault
    exact ⟨arg, hperm.mem_iff.1 harg, hname⟩
  · exact htyped arg (hperm.mem_iff.2 harg)

/-! ## Names -/

/-- A name is found among parameters exactly if one has it. -/
theorem findParam?_isSome_iff {params : List Param} {name : String} :
    (findParam? params name).isSome = true ↔ ∃ p ∈ params, p.name = name := by
  simp [findParam?]

/-- Parameters take arguments that all name one of them and leave out only those with defaults. -/
theorem Params.takes_iff {params : List Param} {args : List Arg} :
    Params.Takes params (args.map Arg.name) ↔
      (∀ arg ∈ args, ∃ p ∈ params, p.name = arg.name) ∧
        ∀ p ∈ params, p.default? = none → ∃ arg ∈ args, arg.name = p.name := by
  have hnamed : ∀ arg : Arg, (findParam? params arg.name).isSome = true ↔
      ∃ p ∈ params, p.name = arg.name := fun arg => findParam?_isSome_iff
  have hsupplied : ∀ p : Param, p.default?.isSome = true ∨ p.name ∈ args.map Arg.name ↔
      (p.default? = none → ∃ arg ∈ args, arg.name = p.name) := by
    intro p
    rw [List.mem_map]
    cases p.default? with
    | none => simp
    | some value => simp
  rw [Params.Takes, List.forall_mem_map]
  exact and_congr (forall₂_congr fun arg _ => hnamed arg) (forall₂_congr fun p _ => hsupplied p)

/-! ## Lexical rules -/

/-- A name is looked up to what it means. -/
theorem Env.lookup_eq_ok_iff {env : Env} {name : String} {type : Ty} :
    env.lookup name = .ok type ↔ env.find? name = some type := by
  rw [Env.lookup, Env.find?]
  cases env.scopes.findSome? (·.find? name) with
  | none => simp
  | some t => simp

/-- An argument is taken if its type agrees with that of the parameter it names. -/
theorem Typing.argument_eq_ok_iff {params : List Param} {name : String} {received : Ty} :
    Typing.argument params name received = .ok () ↔
      ∀ p, findParam? params name = some p → received.agrees p.type = true := by
  rw [Typing.argument]
  cases findParam? params name with
  | none => simp
  | some p => simp

/-- Arguments are accepted if each is, whatever its place. -/
theorem Args.checkIn_eq_ok_iff {env : Env} {params : List Param} {args : List Arg} :
    Args.checkIn env params args = .ok () ↔
      ∀ arg ∈ args, ∃ received, arg.value.typeIn env = .ok received ∧
        Typing.argument params arg.name received = .ok () := by
  induction args with
  | nil =>
    rw [Args.checkIn]
    exact ⟨fun _ => nofun, fun _ => rfl⟩
  | cons arg args ih =>
    obtain ⟨name, value⟩ := arg
    rw [Args.checkIn, List.forall_mem_cons, ← ih, bind_eq_ok_iff]
    constructor
    · rintro ⟨received, hvalue, h⟩
      obtain ⟨_, hargument, hargs⟩ := bind_eq_ok_iff.1 h
      exact ⟨⟨received, hvalue, hargument⟩, hargs⟩
    · rintro ⟨⟨received, hvalue, hargument⟩, hargs⟩
      exact ⟨received, hvalue, bind_eq_ok_iff.2 ⟨(), hargument, hargs⟩⟩

/-- The callee is found, and takes these arguments for their names. -/
theorem Env.signature_eq_ok_iff {env : Env} {callee : String} {args : List Arg}
    {params : List Param} {result : Ty} :
    (env.lookup callee >>= fun declared => Typing.signature callee declared args) =
        .ok (params, result) ↔
      env.find? callee = some (.fn params result 0) ∧
        Params.Takes params (args.map Arg.name) := by
  rw [bind_eq_ok_iff, ← Env.lookup_eq_ok_iff]
  constructor
  · rintro ⟨declared, hlookup, hsignature⟩
    obtain ⟨rfl, htakes⟩ := Typing.signature_eq_ok_iff.1 hsignature
    exact ⟨hlookup, htakes⟩
  · rintro ⟨hlookup, htakes⟩
    exact ⟨_, hlookup, Typing.signature_eq_ok_iff.2 ⟨rfl, htakes⟩⟩

/-- A call in an expression is accepted under four conditions, none of which speaks of the order of
its arguments. -/
theorem Factor.call_eq_ok_iff {env : Env} {callee : String} {args : List Arg} {result : Ty} :
    (Factor.call callee args).typeIn env = .ok result ↔
      ∃ params, (env.find? callee = some (.fn params result 0) ∧
        Params.Takes params (args.map Arg.name)) ∧ Args.checkIn env params args = .ok () := by
  -- The first two steps are one, the search for the signature.
  rw [Factor.typeIn, ← bind_assoc, bind_eq_ok_iff]
  constructor
  · rintro ⟨⟨params, result'⟩, hsignature, h⟩
    obtain ⟨_, hargs, hresult⟩ := bind_eq_ok_iff.1 h
    cases hresult
    exact ⟨params, Env.signature_eq_ok_iff.1 hsignature, hargs⟩
  · rintro ⟨params, hsignature, hargs⟩
    exact ⟨_, Env.signature_eq_ok_iff.2 hsignature, bind_eq_ok_iff.2 ⟨(), hargs, rfl⟩⟩

/-- A call as a statement is accepted exactly if it is in an expression. -/
theorem Stmt.call_eq_ok_iff {env : Env} {callee : String} {args : List Arg} :
    (Stmt.call callee args).checkIn env = .ok () ↔
      ∃ result, (Factor.call callee args).typeIn env = .ok result := by
  rw [Stmt.checkIn, ← bind_assoc, bind_eq_ok_iff, Prod.exists, exists_comm]
  refine exists_congr fun result => ?_
  rw [Factor.call_eq_ok_iff]
  exact exists_congr fun params => and_congr_left fun _ => Env.signature_eq_ok_iff

/-! ## Checks -/

/-- A context accepts a call exactly if its surroundings do. -/
theorem Context.acceptsCall_iff {c : Context} {callee : String} {args : List Arg} {result : Ty} :
    c.AcceptsCall callee args result ↔ (Factor.call callee args).typeIn c.env = .ok result := by
  rw [Factor.call_eq_ok_iff, Context.AcceptsCall]
  refine exists_congr fun params => ?_
  -- A check leaves the context as it was, so every value is checked in the context of the call.
  have hvalue : ∀ (arg : Arg) (received : Ty),
      arg.value.check c = .ok received c ↔ arg.value.typeIn c.env = .ok received :=
    fun arg _ => (arg.value.check_keeps c).ok_iff
  rw [Params.takes_iff, Args.checkIn_eq_ok_iff]
  constructor
  · rintro ⟨hcallee, hnamed, hsupplied, htyped⟩
    refine ⟨⟨hcallee, hnamed, hsupplied⟩, fun arg harg => ?_⟩
    obtain ⟨p, received, hp, hreceived, hagrees⟩ := htyped arg harg
    refine ⟨received, (hvalue arg received).1 hreceived, Typing.argument_eq_ok_iff.2 ?_⟩
    rintro q hq
    cases hp.symm.trans hq
    exact hagrees
  · rintro ⟨⟨hcallee, hnamed, hsupplied⟩, htyped⟩
    refine ⟨hcallee, hnamed, hsupplied, fun arg harg => ?_⟩
    obtain ⟨received, hreceived, hargument⟩ := htyped arg harg
    obtain ⟨p, hp⟩ := Option.isSome_iff_exists.1 (findParam?_isSome_iff.2 (hnamed arg harg))
    exact ⟨p, received, hp, (hvalue arg received).2 hreceived,
      Typing.argument_eq_ok_iff.1 hargument p hp⟩

/-- A call in an expression succeeds, and leaves the context alone, if it is accepted. -/
theorem Factor.call_check_iff (c : Context) (callee : String) (args : List Arg) (result : Ty)
    (stop : Context) :
    (Factor.call callee args).check c = .ok result stop ↔
      stop = c ∧ c.AcceptsCall callee args result := by
  rw [((Factor.call callee args).check_keeps c).eq_ok_iff, Context.acceptsCall_iff]

/-- The result of a call that is a statement is dropped. -/
theorem Stmt.call_check_iff (c : Context) (callee : String) (args : List Arg) (stop : Context) :
    (Stmt.call callee args).check c = .ok () stop ↔
      stop = c ∧ ∃ result, c.AcceptsCall callee args result := by
  rw [((Stmt.call callee args).check_agrees c).eq_ok_iff, Stmt.call_eq_ok_iff]
  exact and_congr_right fun _ => exists_congr fun result => Context.acceptsCall_iff.symm

/-- Whether a call is accepted does not depend on the order of its arguments. -/
theorem Context.acceptsCall_perm {args args' : List Arg} (h : args.Perm args') (c : Context)
    (callee : String) (result : Ty) :
    c.AcceptsCall callee args result ↔ c.AcceptsCall callee args' result :=
  ⟨fun haccepts => haccepts.perm h, fun haccepts => haccepts.perm h.symm⟩

/-- **Calls**: a check of a call succeeds exactly if the callee is a function, its arguments name
parameters of it and all that have no default, and the value of each argument agrees with the first
parameter of its name, checked in the context of the call. The answer is the declared result, and
the context stays as it was. So a call and the same call with its arguments permuted are accepted or
rejected alike. -/
theorem keyword_calls :
    (∀ c callee args result stop, (Factor.call callee args).check c = .ok result stop ↔
      stop = c ∧ c.AcceptsCall callee args result) ∧
    (∀ c callee args stop, (Stmt.call callee args).check c = .ok () stop ↔
      stop = c ∧ ∃ result, c.AcceptsCall callee args result) ∧
    ∀ c callee args args', args.Perm args' →
      (∀ result stop, (Factor.call callee args).check c = .ok result stop ↔
        (Factor.call callee args').check c = .ok result stop) ∧
      ∀ stop, (Stmt.call callee args).check c = .ok () stop ↔
        (Stmt.call callee args').check c = .ok () stop := by
  refine ⟨Factor.call_check_iff, Stmt.call_check_iff, fun c callee args args' hperm => ⟨?_, ?_⟩⟩
  · intro result stop
    rw [Factor.call_check_iff, Factor.call_check_iff, Context.acceptsCall_perm hperm]
  · intro stop
    simp only [Stmt.call_check_iff, Context.acceptsCall_perm hperm]

/-- A context with a function `f: (a: int, k: (x: int): int, d: int <- 1): bool`. -/
def callbackContext : Context := Context.initial.declaring [("f", .fn
  [⟨"a", .int, none⟩, ⟨"k", .fn [⟨"x", .int, none⟩] .int 0, none⟩,
    ⟨"d", .int, some (Factor.int 1).toExpr⟩] .bool 0)]

/-- The arguments `a: 1` and `k: (x: int): int <- { return x; }`. -/
def callbackArgs : List Arg := [⟨"a", (Factor.int 1).toExpr⟩,
  ⟨"k", .closure [⟨"x", .int, none⟩] .int [.ret (Factor.var "x" []).toExpr]⟩]

/-- The closure may come first, and is checked in the same context. -/
theorem callbackArgs_reversed :
    (Factor.call "f" callbackArgs).check callbackContext = .ok .bool callbackContext ∧
      (Factor.call "f" callbackArgs.reverse).check callbackContext = .ok .bool callbackContext := by
  have hperm : callbackArgs.Perm callbackArgs.reverse := (List.reverse_perm _).symm
  have haccepted : (Factor.call "f" callbackArgs).check callbackContext =
      .ok .bool callbackContext := rfl
  refine ⟨haccepted, ?_⟩
  exact ((keyword_calls.2.2 callbackContext "f" _ _ hperm).1 _ _).1 haccepted

end FrontEnd
