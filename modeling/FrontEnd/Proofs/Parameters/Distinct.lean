import FrontEnd.Analysis
import FrontEnd.Proofs.Naming.Explanation
import FrontEnd.Proofs.Scoping.Sites

/-!
# Distinct parameter names

Whether a parameter name is repeated is found out in two ways: the parameters of a closure are
compared with each other in front of its body, and those of every body are declared in one scope.

- `Params.checkIn_eq_ok_iff`: parameters of a closure are accepted if their names are distinct and
  each default is accepted.
- `Env.body_eq_ok_iff`: a body is entered if the names of its parameters are distinct.
- `checkSource_parameters_distinct`: so in an accepted program no checked function and no checked
  closure repeats a parameter name.

The parameters that a type annotation lists are not looked at, and may repeat a name.
-/

namespace FrontEnd

/-! ## Accepted parameters -/

/-- A parameter of a closure is accepted if its name is new. -/
theorem Typing.newParam_eq_ok_iff {seen : List String} {name : String} :
    Typing.newParam seen name = .ok () ↔ name ∉ seen := by
  simp [Typing.newParam]

/-- Parameters of a closure are accepted exactly if their names are different and new and each
default fits its type. -/
theorem Params.checkIn_eq_ok_iff {env : Env} {params : List Param} {seen : List String} :
    Params.checkIn env seen params = .ok () ↔
      (params.map Param.name).Nodup ∧ (∀ p ∈ params, p.name ∉ seen) ∧
        ∀ p ∈ params, Default.checkIn env p.type p.default? = .ok () := by
  induction params generalizing seen with
  | nil =>
    rw [Params.checkIn]
    exact ⟨fun _ => ⟨List.nodup_nil, nofun, nofun⟩, fun _ => rfl⟩
  | cons p params ih =>
    obtain ⟨name, type, default?⟩ := p
    rw [Params.checkIn, List.map_cons, List.nodup_cons, List.forall_mem_cons, List.forall_mem_cons]
    constructor
    · intro h
      obtain ⟨_, hnew, h⟩ := exists_ok_of_bind h
      obtain ⟨_, hdefault, h⟩ := exists_ok_of_bind h
      obtain ⟨hnodup, hseen, hdefaults⟩ := ih.1 h
      -- The names seen at the rest are those seen before and the own name.
      refine ⟨⟨fun hmem => ?_, hnodup⟩, ⟨Typing.newParam_eq_ok_iff.1 hnew, fun p hp hmem => ?_⟩,
        hdefault, hdefaults⟩
      · obtain ⟨p, hp, hname⟩ := List.mem_map.1 hmem
        exact hseen p hp (hname ▸ .head _)
      · exact hseen p hp (.tail _ hmem)
    · rintro ⟨⟨hfresh, hnodup⟩, ⟨hnew, hseen⟩, hdefault, hdefaults⟩
      rw [Typing.newParam_eq_ok_iff.2 hnew]
      show Default.checkIn env type default? >>= _ = _
      rw [hdefault]
      refine ih.2 ⟨hnodup, fun p hp hmem => ?_, hdefaults⟩
      obtain heq | hmem := List.mem_cons.1 hmem
      · exact hfresh (List.mem_map.2 ⟨p, hp, heq⟩)
      · exact hseen p hp hmem

/-- A body can be entered exactly if its parameters have different names. -/
theorem Env.body_eq_ok_iff {env inner : Env} {params : List Param} {result : Ty} :
    env.body params result = .ok inner ↔
      (params.map Param.name).Nodup ∧ inner = env.inside params result := by
  have hspec := Naming.declareAll_spec (params.map Param.declaration) [] List.nodup_nil
  rw [Env.body, Scope.ofList_eq]
  cases hscope : Scope.declareAll [] (params.map Param.declaration) with
  | ok scope =>
    rw [hscope] at hspec
    obtain ⟨rfl, hnodup⟩ := hspec
    rw [List.append_nil, Scope.names, List.map_reverse, List.nodup_reverse,
      Params.map_declaration] at hnodup
    rw [List.append_nil]
    exact ⟨fun h => ⟨hnodup, (Except.ok.inj h).symm⟩, fun h => h.2 ▸ rfl⟩
  | error fault =>
    rw [hscope] at hspec
    obtain ⟨name, -, hcount⟩ := hspec
    rw [Params.map_declaration, Scope.names, List.map_nil, List.append_nil] at hcount
    constructor
    · intro h
      cases h
    · intro h
      -- A name that is declared again counts twice among the names.
      exact absurd (List.nodup_iff_count_le_one.1 h.1 name) (Nat.not_le.2 hcount)

/-! ## Accepted programs -/

/-- The parameters that a part binds: those of a declared function or of a closure. -/
def Part.parameters? : Part → Option (List Param)
  | .expr (.closure params _ _) => some params
  | .stmt (.letFun _ params _ _) => some params
  | _ => none

/-- An accepted closure has parameters of different names. -/
theorem Expr.closure_distinct {env : Env} {params : List Param} {result type : Ty}
    {body : List Stmt} (h : (Expr.closure params result body).typeIn env = .ok type) :
    (params.map Param.name).Nodup := by
  rw [Expr.typeIn] at h
  obtain ⟨_, hparams, -⟩ := exists_ok_of_bind h
  exact (Params.checkIn_eq_ok_iff.1 hparams).1

/-- An accepted function has parameters of different names. -/
theorem Stmt.letFun_distinct {env : Env} {name : String} {params : List Param} {result : Ty}
    {body : List Stmt} (h : (Stmt.letFun name params result body).checkIn env = .ok ()) :
    (params.map Param.name).Nodup := by
  rw [Stmt.checkIn] at h
  obtain ⟨inner, hinner, -⟩ := exists_ok_of_bind h
  exact (Env.body_eq_ok_iff.1 hinner).1

/-- No accepted site repeats a parameter name in front of a body. -/
theorem Site.parameters_distinct {site : Site} {params : List Param} (h : site.Accepted)
    (hparams : site.part.parameters? = some params) : (params.map Param.name).Nodup := by
  obtain ⟨env, part⟩ := site
  cases part with
  | expr e =>
    obtain ⟨type, h⟩ := h
    cases e with
    | closure params result body =>
      cases hparams
      exact Expr.closure_distinct h
    | _ => cases hparams
  | stmt s =>
    cases s with
    | letFun name params result body =>
      cases hparams
      exact Stmt.letFun_distinct h
    | _ => cases hparams
  | _ => cases hparams

/-- **Distinct parameters**: in an accepted program the parameters of every checked function and of
every checked closure have different names. -/
theorem checkSource_parameters_distinct {source file : String} {program : Program}
    (h : checkSource source file = .ok program) :
    ∀ site ∈ program.sites, ∀ params, site.part.parameters? = some params →
      (params.map Param.name).Nodup := by
  have hstages := checkSource_stages source file
  rw [h] at hstages
  obtain ⟨-, c, hcheck⟩ := hstages
  intro site hsite params hparams
  exact Site.parameters_distinct (Program.sites_accepted hcheck site hsite) hparams

/-- A declared function with a closure in its body. -/
def nestedParameters : String :=
  "fun f(a: int, b: int): int <- begin
    let g : (a: int): int <- (a: int): int <- \x7b return b; \x7d;
  end"

/-- The source is accepted, two of its sites bind parameters, and these have different names. -/
theorem nestedParameters_distinct :
    ∃ program, checkSource nestedParameters defaultFile = .ok program ∧
      (program.sites.filterMap (·.part.parameters?)).length = 2 ∧
      ∀ site ∈ program.sites, ∀ params, site.part.parameters? = some params →
        (params.map Param.name).Nodup := by
  have hrun : (checkSource nestedParameters defaultFile).toOption.map
      (fun program => (program.sites.filterMap (·.part.parameters?)).length) = some 2 := by
    decide +kernel
  cases hprogram : checkSource nestedParameters defaultFile with
  | ok program =>
    rw [hprogram] at hrun
    exact ⟨program, rfl, Option.some.inj hrun, checkSource_parameters_distinct hprogram⟩
  | error d =>
    rw [hprogram] at hrun
    cases hrun

/-- The parameters that the annotation of a variable lists, if it is a function type. -/
def Stmt.annotated? : Stmt → Option (List Param)
  | .letVar _ (.fn params _ _) _ => some params
  | _ => none

/-- A variable whose annotation repeats a name. -/
def repeatedAnnotation : String :=
  "let f : (a: int, a: int): int <- (a: int): int <- \x7b return a; \x7d;"

/-- A type annotation may repeat a parameter name. -/
theorem annotation_repeats :
    ∃ program, checkSource repeatedAnnotation defaultFile = .ok program ∧
      ∃ s ∈ program.body, ∃ params, s.annotated? = some params ∧
        ¬ (params.map Param.name).Nodup := by
  have hrun : (checkSource repeatedAnnotation defaultFile).toOption.map
      (fun program => (program.body.filterMap Stmt.annotated?).map (·.map Param.name)) =
        some [["a", "a"]] := by
    decide +kernel
  cases hprogram : checkSource repeatedAnnotation defaultFile with
  | ok program =>
    rw [hprogram] at hrun
    replace hrun : (program.body.filterMap Stmt.annotated?).map (·.map Param.name) =
        [["a", "a"]] := Option.some.inj hrun
    have hnames : ["a", "a"] ∈
        (program.body.filterMap Stmt.annotated?).map (·.map Param.name) := by
      rw [hrun]
      exact .head _
    obtain ⟨params, hparams, hrepeated⟩ := List.mem_map.1 hnames
    obtain ⟨s, hs, hannotated⟩ := List.mem_filterMap.1 hparams
    refine ⟨program, rfl, s, hs, params, hannotated, ?_⟩
    rw [hrepeated]
    decide
  | error d =>
    rw [hprogram] at hrun
    cases hrun

end FrontEnd
