import FrontEnd.Analysis
import FrontEnd.Proofs.Parameters.Calls
import FrontEnd.Syntax.Equal

/-!
# Repeated arguments

A call may name a parameter in several of its arguments. None of them goes unchecked: each is held
against the same parameter, the first of its name. So it makes no difference to a call which of the
arguments of one name are left out, as long as one is kept.

- `Args.Picks`: of the arguments of a call one is kept for each name.
- `Args.exists_picks`: this can be done for any arguments.
- `Context.AcceptsCall.picks`: an accepted call is accepted with what is kept, which gives every
  parameter without a default one value.
- `Program.repeated_arguments`: so it is for the checked calls of an accepted program.
- `repeatedArgument_accepted`: there are such calls with repeated names.
-/

namespace FrontEnd

/-! ## One argument for each name -/

/-- Of some arguments one is kept for each name. -/
structure Args.Picks (picked args : List Arg) : Prop where
  sublist : picked.Sublist args
  distinct : (picked.map Arg.name).Nodup
  names : ∀ arg ∈ args, ∃ kept ∈ picked, kept.name = arg.name

theorem Args.exists_picks (args : List Arg) : ∃ picked, Args.Picks picked args := by
  induction args with
  | nil => exact ⟨[], .refl [], List.nodup_nil, nofun⟩
  | cons arg args ih =>
    obtain ⟨picked, hsublist, hdistinct, hnames⟩ := ih
    by_cases hkept : ∃ kept ∈ picked, kept.name = arg.name
    · exact ⟨picked, hsublist.cons arg, hdistinct, List.forall_mem_cons.2 ⟨hkept, hnames⟩⟩
    · have hfresh : arg.name ∉ picked.map Arg.name := by
        rw [List.mem_map]
        exact hkept
      refine ⟨arg :: picked, hsublist.cons_cons arg, List.nodup_cons.2 ⟨hfresh, hdistinct⟩, ?_⟩
      refine List.forall_mem_cons.2 ⟨⟨arg, List.mem_cons_self, rfl⟩, fun other hother => ?_⟩
      obtain ⟨kept, hmem, hname⟩ := hnames other hother
      exact ⟨kept, List.mem_cons_of_mem arg hmem, hname⟩

/-- No two arguments are kept for one name. -/
theorem Args.Picks.eq_of_name {picked args : List Arg} (h : Args.Picks picked args) {a b : Arg}
    (ha : a ∈ picked) (hb : b ∈ picked) (hname : a.name = b.name) : a = b :=
  List.inj_on_of_nodup_map h.distinct ha hb hname

/-! ## Accepted calls -/

/-- An accepted call is accepted with any choice of one argument for each name, and this choice has
exactly one value for every parameter without a default. -/
theorem Context.AcceptsCall.picks {c : Context} {callee : String} {picked args : List Arg}
    {params : List Param} {result : Ty} (h : c.AcceptsCall callee args result)
    (hcallee : c.find? callee = some (.fn params result 0)) (hpicks : Args.Picks picked args) :
    c.AcceptsCall callee picked result ∧
      ∀ p ∈ params, p.default? = none → ∃! arg, arg ∈ picked ∧ arg.name = p.name := by
  obtain ⟨params', hcallee', hnamed, hsupplied, htyped⟩ := h
  cases hcallee.symm.trans hcallee'
  have hmem : ∀ arg ∈ picked, arg ∈ args := fun arg harg => hpicks.sublist.subset harg
  have hkept : ∀ p ∈ params, p.default? = none → ∃ arg ∈ picked, arg.name = p.name := by
    intro p hp hdefault
    obtain ⟨arg, harg, hname⟩ := hsupplied p hp hdefault
    obtain ⟨kept, hkept, hsame⟩ := hpicks.names arg harg
    exact ⟨kept, hkept, hsame.trans hname⟩
  constructor
  · exact ⟨params, hcallee, fun arg harg => hnamed arg (hmem arg harg), hkept,
      fun arg harg => htyped arg (hmem arg harg)⟩
  · intro p hp hdefault
    obtain ⟨arg, harg, hname⟩ := hkept p hp hdefault
    refine ⟨arg, ⟨harg, hname⟩, fun other hother => ?_⟩
    exact hpicks.eq_of_name hother.1 harg (hother.2.trans hname.symm)

/-- A checked call that is accepted has a callee here, and is accepted in every context that has
these surroundings. -/
theorem Site.acceptsCall {env : Env} {callee : String} {args : List Arg}
    (h : Site.Accepted ⟨env, .factor (.call callee args)⟩ ∨
      Site.Accepted ⟨env, .stmt (.call callee args)⟩) :
    ∃ params result, env.lookup callee = .ok (.fn params result 0) ∧
      ∀ c : Context, c.env = env → c.find? callee = some (.fn params result 0) ∧
        c.AcceptsCall callee args result := by
  have hcall : ∃ result, (Factor.call callee args).typeIn env = .ok result := by
    obtain h | h := h
    · exact h
    · exact Stmt.call_eq_ok_iff.1 h
  obtain ⟨result, hresult⟩ := hcall
  obtain ⟨params, ⟨hcallee, -⟩, -⟩ := Factor.call_eq_ok_iff.1 hresult
  refine ⟨params, result, Env.lookup_eq_ok_iff.2 hcallee, ?_⟩
  rintro c rfl
  exact ⟨hcallee, Context.acceptsCall_iff.2 hresult⟩

/-- **Repeated arguments**: in an accepted program every argument of a checked call, repeated or
not, has a value of the type of the first parameter of its name. One argument can be kept for each
name, and whichever it is, the call with these alone is accepted at the same place, with the same
result and with exactly one value for each parameter that has no default. -/
theorem Program.repeated_arguments {program : Program} {stop : Context}
    (h : program.check = .ok stop) :
    ∀ env callee args,
      ⟨env, .factor (.call callee args)⟩ ∈ program.sites ∨
        ⟨env, .stmt (.call callee args)⟩ ∈ program.sites →
      ∃ params result, env.lookup callee = .ok (.fn params result 0) ∧
        (∃ picked, Args.Picks picked args) ∧
        ∀ c : Context, c.env = env →
          (∀ arg ∈ args, ∃ p received, findParam? params arg.name = some p ∧
            arg.value.check c = .ok received c ∧ received.agrees p.type = true) ∧
          ∀ picked, Args.Picks picked args →
            (Factor.call callee picked).check c = .ok result c ∧
            ∀ p ∈ params, p.default? = none → ∃! arg, arg ∈ picked ∧ arg.name = p.name := by
  intro env callee args hsite
  have hsites := Program.sites_accepted h
  have haccepted := hsite.imp (hsites _) (hsites _)
  obtain ⟨params, result, hcallee, hcontexts⟩ := Site.acceptsCall haccepted
  refine ⟨params, result, hcallee, Args.exists_picks args, fun c hc => ⟨?_, ?_⟩⟩
  · obtain ⟨hfind, params', hfind', -, -, htyped⟩ := hcontexts c hc
    cases hfind.symm.trans hfind'
    exact htyped
  · intro picked hpicks
    obtain ⟨hfind, haccepts⟩ := hcontexts c hc
    obtain ⟨hpicked, hvalues⟩ := haccepts.picks hfind hpicks
    exact ⟨(Factor.call_check_iff c callee picked result c).2 ⟨rfl, hpicked⟩, hvalues⟩

/-- The argument `x: 1` and then the argument `x: readBool()`. -/
def repeatedArgs : List Arg :=
  [⟨"x", (Factor.int 1).toExpr⟩, ⟨"x", (Factor.call "readBool" []).toExpr⟩]

/-- The program `print(x: 1, x: readBool());`. -/
def repeatedCall : Program := ⟨[.call "print" repeatedArgs]⟩

/-- Either of the two arguments may be left out. -/
theorem repeatedCall_picked :
    repeatedCall.check = .ok .initial ∧
      (Factor.call "print" [⟨"x", (Factor.int 1).toExpr⟩]).check .initial =
        .ok .noValue .initial ∧
      (Factor.call "print" [⟨"x", (Factor.call "readBool" []).toExpr⟩]).check .initial =
        .ok .noValue .initial := by
  have hcheck : repeatedCall.check = .ok .initial := rfl
  have hsite : ⟨.initial, .stmt (.call "print" repeatedArgs)⟩ ∈ repeatedCall.sites := .head _
  obtain ⟨params, result, hcallee, -, hcontexts⟩ :=
    Program.repeated_arguments hcheck .initial "print" repeatedArgs (.inr hsite)
  cases hcallee
  obtain ⟨-, hpicked⟩ := hcontexts .initial rfl
  have hnames : ∀ arg ∈ repeatedArgs, arg.name = "x" :=
    List.forall_mem_cons.2 ⟨rfl, List.forall_mem_singleton.2 rfl⟩
  have hpicks : ∀ kept : Arg, kept.name = "x" → [kept].Sublist repeatedArgs →
      Args.Picks [kept] repeatedArgs := by
    intro kept hkept hsublist
    refine ⟨hsublist, List.nodup_singleton _, fun arg harg => ⟨kept, List.mem_cons_self, ?_⟩⟩
    rw [hkept, hnames arg harg]
  refine ⟨hcheck, (hpicked _ (hpicks _ rfl ?_)).1, (hpicked _ (hpicks _ rfl ?_)).1⟩
  · exact (List.nil_sublist _).cons_cons _
  · exact .cons _ (.refl _)

/-- A checked call of an accepted program may repeat an argument name. -/
theorem repeatedArgument_accepted :
    ((checkSource "print(x: 1, x: readBool());" defaultFile).toOption.map
      (·.same repeatedCall)) = some true ∧
    repeatedCall.check = .ok .initial ∧
    ⟨.initial, .stmt (.call "print" repeatedArgs)⟩ ∈ repeatedCall.sites ∧
    ¬ (repeatedArgs.map Arg.name).Nodup := by
  refine ⟨by decide +kernel, rfl, .head _, ?_⟩
  decide

end FrontEnd
