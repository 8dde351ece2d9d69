import FrontEnd.Proofs.Naming.Faults
import FrontEnd.Proofs.Scoping.Sites

/-!
# What a check depends on

Of its context a check sees three things: the innermost declarations of the names that its tree
does not bind itself, whether the innermost scope has the name that a statement declares, and the
result type of the innermost body. Contexts that do not differ in these are told apart by no check.

- `Env.SameMeaning`: names have the same innermost declarations in two surroundings.
- `Env.Alike`: no statement with certain free and declared names can tell two surroundings apart.
- `Expr.typeIn_congr`, `Stmt.checkIn_congr`, `Stmts.checkIn_congr`: the lexical rules do not.
- `check_depends_on_visible`: so no check does. In particular it cannot tell how many scopes are
  open, what they hide, or which bodies are around the innermost one.
-/

namespace FrontEnd

namespace Env

/-- The type of the innermost declaration of a name, if there is one. -/
def find? (env : Env) (name : String) : Option Ty := env.scopes.findSome? (·.find? name)

/-- Each of the names has the same innermost declaration in both surroundings, or none in either. -/
def SameMeaning (names : Finset String) (env other : Env) : Prop :=
  ∀ name ∈ names, env.find? name = other.find? name

/-- Statements with these free names, which declare those names in their block, see the same in both
surroundings. -/
structure Alike (free : Finset String) (declared : List String) (env other : Env) : Prop where
  meaning : SameMeaning free env other
  vacancy : ∀ name ∈ declared, (env.scope.find? name).isSome = (other.scope.find? name).isSome
  result : env.result? = other.result?

variable {env other : Env} {names free : Finset String}

/-! ## Lookups -/

/-- Names with the same meaning are looked up with the same result. -/
theorem lookup_congr {name : String} (h : env.find? name = other.find? name) :
    env.lookup name = other.lookup name := by
  unfold find? at h
  unfold lookup
  rw [h]

/-- A name means what its block declares it to be, and else what the scopes around do. -/
theorem find?_eq (env : Env) (name : String) :
    env.find? name = (env.scope.find? name).or (env.outer.findSome? (·.find? name)) := by
  rw [find?, scopes, List.findSome?_cons]
  cases env.scope.find? name <;> rfl

/-- In a body, parameters hide what surrounds it. -/
theorem find?_inside (env : Env) (params : List Param) (result : Ty) (name : String) :
    (env.inside params result).find? name =
      (Scope.find? (params.map Param.declaration).reverse name).or (env.find? name) :=
  find?_eq _ name

/-- Behind a declaration, the declared name hides its earlier meaning. -/
theorem find?_extend (env : Env) (declaration? : Option (String × Ty)) (name : String) :
    (env.extend declaration?).find? name =
      (Scope.find? declaration?.toList name).or (env.find? name) := by
  cases declaration? with
  | none => rfl
  | some declaration =>
    rw [find?_eq, find?_eq, extend, Scope.find?_cons, Option.toList_some, Scope.find?_cons]
    split
    · rfl
    · rfl

/-! ## Surroundings of the parts -/

/-- What agrees on some names agrees on fewer. -/
theorem SameMeaning.mono (h : SameMeaning names env other) (hsub : free ⊆ names) :
    SameMeaning free env other :=
  fun name hname => h name (hsub hname)

/-- Surroundings that agree on the names of a whole agree on those of its first part. -/
theorem SameMeaning.left {n m : Naming} (h : SameMeaning (n.join m).free env other) :
    SameMeaning n.free env other :=
  h.mono Finset.subset_union_left

/-- Surroundings that agree on the names of a whole agree on those of its second part. -/
theorem SameMeaning.right {n m : Naming} (h : SameMeaning (n.join m).free env other) :
    SameMeaning m.free env other :=
  h.mono Finset.subset_union_right

/-- Surroundings that agree on a name that is used look it up with the same result. -/
theorem SameMeaning.lookup {name : String} (h : SameMeaning (Naming.use name).free env other) :
    env.lookup name = other.lookup name :=
  lookup_congr (h name (Finset.mem_singleton_self name))

/-- A scope in front of both gives its own names a meaning, so they need not have one behind it. -/
theorem SameMeaning.behind {scope : Scope} {inner inner' : Env} {n : Naming}
    (h : SameMeaning (n.behind scope.names).free env other)
    (hinner : ∀ name, inner.find? name = (scope.find? name).or (env.find? name))
    (hinner' : ∀ name, inner'.find? name = (scope.find? name).or (other.find? name)) :
    SameMeaning n.free inner inner' := by
  intro name hname
  rw [hinner, hinner']
  cases hfind : scope.find? name with
  | some type => rfl
  | none =>
    have hnew : name ∉ scope.names := fun hmem => by
      have hsome := Scope.find?_isSome_iff.2 hmem
      rw [hfind] at hsome
      cases hsome
    exact h name (Finset.mem_sdiff.2 ⟨hname, mt List.mem_toFinset.1 hnew⟩)

/-- A block is opened alike in surroundings that agree on its free names. -/
theorem Alike.block {n : Naming} {declared : List String} (h : SameMeaning n.free env other)
    (hresult : env.result? = other.result?) : Alike n.free declared env.block other.block :=
  ⟨h, fun _ _ => rfl, hresult⟩

/-- The names of a body's own scope are those of its parameters. -/
theorem names_inside (params : List Param) :
    (Scope.names (params.map Param.declaration).reverse).toFinset =
      (params.map Param.name).toFinset := by
  rw [Scope.names, List.map_reverse, Params.map_declaration, List.toFinset_reverse]

/-- A body is entered alike in surroundings that agree on the names that are free outside it. Its
parameters mean the same in both. -/
theorem Alike.inside {n : Naming} {params : List Param} {result : Ty} {declared : List String}
    (h : SameMeaning (n.body (params.map Param.name) declared).free env other) :
    Alike n.free declared (env.inside params result) (other.inside params result) := by
  have hbehind : SameMeaning
      (n.behind (Scope.names (params.map Param.declaration).reverse)).free env other := by
    rw [Naming.behind, names_inside]
    exact h
  exact ⟨hbehind.behind (env.find?_inside params result) (other.find?_inside params result),
    fun _ _ => rfl, rfl⟩

/-- Behind a statement its name has the same meaning in both, whatever it meant before. -/
theorem Alike.extend {n m : Naming} {s : Stmt} {declared : List String}
    (h : Alike (n.join (m.behind s.declared)).free (s.declared ++ declared) env other) :
    Alike m.free declared (env.extend s.declaration?) (other.extend s.declaration?) := by
  have hbehind : SameMeaning (m.behind (Scope.names s.declaration?.toList)).free env other :=
    h.meaning.right
  refine ⟨hbehind.behind (env.find?_extend _) (other.find?_extend _), fun name hname => ?_, ?_⟩
  · have hvacancy := h.vacancy name (List.mem_append_right _ hname)
    cases s.declaration? with
    | none => exact hvacancy
    | some declaration =>
      rw [Env.extend, Env.extend, Scope.find?_cons, Scope.find?_cons]
      split
      · rfl
      · exact hvacancy
  · rw [result?_extend, result?_extend]
    exact h.result

/-- A body fails in both surroundings or is entered in both. -/
theorem body_bind_congr {α : Type} {params : List Param} {result : Ty}
    {f g : Env → Except Fault α}
    (h : f (env.inside params result) = g (other.inside params result)) :
    env.body params result >>= f = other.body params result >>= g := by
  unfold body
  cases hscope : Scope.ofList (params.map Param.declaration) with
  | error fault => rfl
  | ok scope =>
    have hinner : env.body params result = .ok ⟨scope, env.scopes, some result⟩ := by
      rw [body, hscope]
      rfl
    cases body_eq_ok hinner
    exact h

end Env

/-! ## The lexical rules -/

mutual

/-- **Expressions**: what an expression is depends on the meaning of its free names alone. -/
theorem Expr.typeIn_congr : ∀ (e : Expr) {env other : Env},
    Env.SameMeaning e.naming.free env other → e.typeIn env = e.typeIn other
  | .cond condition, env, other, h => by
    rw [Expr.naming] at h
    rw [Expr.typeIn, Expr.typeIn, condition.typeIn_congr h]
  | .add sum, env, other, h => by
    rw [Expr.naming] at h
    rw [Expr.typeIn, Expr.typeIn, sum.typeIn_congr h]
  | .array entries, env, other, h => by
    rw [Expr.naming] at h
    rw [Expr.typeIn, Expr.typeIn, Exprs.typesIn_congr entries h]
  | .closure params result body, env, other, h => by
    rw [Expr.naming] at h
    rw [Expr.typeIn, Expr.typeIn, Params.checkIn_congr [] params h.left]
    refine bind_congr fun _ => Env.body_bind_congr ?_
    rw [Stmts.checkIn_congr body (.inside h.right)]

theorem Exprs.typesIn_congr : ∀ (es : List Expr) {env other : Env},
    Env.SameMeaning (Exprs.naming es).free env other →
      Exprs.typesIn env es = Exprs.typesIn other es
  | [], env, other, h => by rw [Exprs.typesIn, Exprs.typesIn]
  | e :: es, env, other, h => by
    rw [Exprs.naming] at h
    rw [Exprs.typesIn, Exprs.typesIn, e.typeIn_congr h.left, Exprs.typesIn_congr es h.right]

/-- The defaults of parameters depend on their own free names alone. -/
theorem Params.checkIn_congr : ∀ (seen : List String) (params : List Param) {env other : Env},
    Env.SameMeaning (Params.naming params).free env other →
      Params.checkIn env seen params = Params.checkIn other seen params
  | seen, [], env, other, h => by rw [Params.checkIn, Params.checkIn]
  | seen, ⟨name, type, default?⟩ :: params, env, other, h => by
    rw [Params.naming] at h
    rw [Params.checkIn, Params.checkIn, Default.checkIn_congr type default? h.left,
      Params.checkIn_congr (name :: seen) params h.right]

theorem Default.checkIn_congr : ∀ (type : Ty) (default? : Option Expr) {env other : Env},
    Env.SameMeaning (Default.naming default?).free env other →
      Default.checkIn env type default? = Default.checkIn other type default?
  | type, none, env, other, h => by rw [Default.checkIn, Default.checkIn]
  | type, some value, env, other, h => by
    rw [Default.naming] at h
    rw [Default.checkIn, Default.checkIn, value.typeIn_congr h]

/-- A condition depends on the free names of both sides. -/
theorem Condition.typeIn_congr : ∀ (condition : Condition) {env other : Env},
    Env.SameMeaning condition.naming.free env other →
      condition.typeIn env = condition.typeIn other
  | .single left relop right, env, other, h => by
    rw [Condition.naming] at h
    rw [Condition.typeIn, Condition.typeIn, left.typeIn_congr h.left, right.typeIn_congr h.right]
  | .chain left relop right boolop next, env, other, h => by
    rw [Condition.naming] at h
    rw [Condition.typeIn, Condition.typeIn, left.typeIn_congr h.left,
      right.typeIn_congr h.right.left, next.typeIn_congr h.right.right]

theorem AddExpr.typeIn_congr : ∀ (sum : AddExpr) {env other : Env},
    Env.SameMeaning sum.naming.free env other → sum.typeIn env = sum.typeIn other
  | .single term, env, other, h => by
    rw [AddExpr.naming] at h
    rw [AddExpr.typeIn, AddExpr.typeIn, term.typeIn_congr h]
  | .chain term addop next, env, other, h => by
    rw [AddExpr.naming] at h
    rw [AddExpr.typeIn, AddExpr.typeIn, term.typeIn_congr h.left, next.typeIn_congr h.right]

theorem Term.typeIn_congr : ∀ (term : Term) {env other : Env},
    Env.SameMeaning term.naming.free env other → term.typeIn env = term.typeIn other
  | .single factor, env, other, h => by
    rw [Term.naming] at h
    rw [Term.typeIn, Term.typeIn, factor.typeIn_congr h]
  | .chain factor mulop next, env, other, h => by
    rw [Term.naming] at h
    rw [Term.typeIn, Term.typeIn, factor.typeIn_congr h.left, next.typeIn_congr h.right]

/-- A factor depends on the meaning of its name, and a call on its arguments as well. -/
theorem Factor.typeIn_congr : ∀ (factor : Factor) {env other : Env},
    Env.SameMeaning factor.naming.free env other → factor.typeIn env = factor.typeIn other
  | .var name indices, env, other, h => by
    rw [Factor.naming] at h
    rw [Factor.typeIn, Factor.typeIn, h.lookup]
  | .call callee args, env, other, h => by
    rw [Factor.naming] at h
    rw [Factor.typeIn, Factor.typeIn, h.left.lookup]
    refine bind_congr fun _ => bind_congr fun (params, result) => ?_
    show Args.checkIn env params args >>= _ = Args.checkIn other params args >>= _
    rw [Args.checkIn_congr params args h.right]
  | .int value, env, other, h => by rw [Factor.typeIn, Factor.typeIn]
  | .float value, env, other, h => by rw [Factor.typeIn, Factor.typeIn]
  | .paren inner, env, other, h => by
    rw [Factor.naming] at h
    rw [Factor.typeIn, Factor.typeIn, inner.typeIn_congr h]

theorem Args.checkIn_congr : ∀ (params : List Param) (args : List Arg) {env other : Env},
    Env.SameMeaning (Args.naming args).free env other →
      Args.checkIn env params args = Args.checkIn other params args
  | params, [], env, other, h => by rw [Args.checkIn, Args.checkIn]
  | params, ⟨name, value⟩ :: args, env, other, h => by
    rw [Args.naming] at h
    rw [Args.checkIn, Args.checkIn, value.typeIn_congr h.left,
      Args.checkIn_congr params args h.right]

/-- **Statements**: a statement depends on its free names, on whether its block has declared what it
declares, and on the result that is asked for. -/
theorem Stmt.checkIn_congr : ∀ (s : Stmt) {env other : Env},
    Env.Alike s.naming.free s.declared env other → s.checkIn env = s.checkIn other
  | .ifThen condition body, env, other, h => by
    rw [Stmt.naming] at h
    rw [Stmt.checkIn, Stmt.checkIn, condition.typeIn_congr h.meaning.left,
      Stmts.checkIn_congr body (.block h.meaning.right h.result)]
  | .ifElse condition body otherwise, env, other, h => by
    rw [Stmt.naming] at h
    rw [Stmt.checkIn, Stmt.checkIn, condition.typeIn_congr h.meaning.left,
      Stmts.checkIn_congr body (.block h.meaning.right.left h.result),
      Stmts.checkIn_congr otherwise (.block h.meaning.right.right h.result)]
  | .loop condition body, env, other, h => by
    rw [Stmt.naming] at h
    rw [Stmt.checkIn, Stmt.checkIn, condition.typeIn_congr h.meaning.left,
      Stmts.checkIn_congr body (.block h.meaning.right h.result)]
  | .assign name value, env, other, h => by
    rw [Stmt.naming] at h
    rw [Stmt.checkIn, Stmt.checkIn, h.meaning.left.lookup, value.typeIn_congr h.meaning.right]
  | .ret value, env, other, h => by
    rw [Stmt.naming] at h
    rw [Stmt.checkIn, Stmt.checkIn, Env.resultType, Env.resultType, h.result,
      value.typeIn_congr h.meaning.right]
  | .letVar name type value, env, other, h => by
    have hvacancy := h.vacancy name (.head _)
    rw [Stmt.naming] at h
    rw [Stmt.checkIn, Stmt.checkIn, Env.vacant, Env.vacant, hvacancy, value.typeIn_congr h.meaning]
  | .letFun name params result body, env, other, h => by
    have hvacancy := h.vacancy name (.head _)
    rw [Stmt.naming] at h
    rw [Stmt.checkIn, Stmt.checkIn, Env.vacant, Env.vacant, hvacancy]
    refine Env.body_bind_congr ?_
    rw [Stmts.checkIn_congr body (.inside h.meaning)]
  | .call callee args, env, other, h => by
    rw [Stmt.naming] at h
    rw [Stmt.checkIn, Stmt.checkIn, h.meaning.left.lookup]
    refine bind_congr fun _ => bind_congr fun (params, _) => ?_
    exact Args.checkIn_congr params args h.meaning.right

/-- Statements depend on the names that are free in them together; what they declare means the same
in both surroundings from there on. -/
theorem Stmts.checkIn_congr : ∀ (body : List Stmt) {env other : Env},
    Env.Alike (Stmts.naming body).free (Stmts.declared body) env other →
      Stmts.checkIn env body = Stmts.checkIn other body
  | [], env, other, h => by rw [Stmts.checkIn, Stmts.checkIn]
  | s :: rest, env, other, h => by
    rw [Stmts.naming, Stmts.declared_cons] at h
    have hs : Env.Alike s.naming.free s.declared env other :=
      ⟨h.meaning.left, fun name hname => h.vacancy name (List.mem_append_left _ hname), h.result⟩
    rw [Stmts.checkIn, Stmts.checkIn, s.checkIn_congr hs, Stmts.checkIn_congr rest h.extend]

end

/-! ## Checks -/

namespace Context

/-- The same declarations and the same innermost result type, with all scopes around the innermost
one made into one, and without the bodies around the innermost one. -/
def condensed (c : Context) : Context := ⟨c.scope, [c.outer.flatten], c.results.take 1⟩

/-- A name is found in nested scopes as it is in one that holds all their declarations. -/
theorem find?_flatten (scopes : List Scope) (name : String) :
    Scope.find? scopes.flatten name = scopes.findSome? (·.find? name) := by
  induction scopes with
  | nil => rfl
  | cons scope scopes ih =>
    rw [List.flatten_cons, List.findSome?_cons, ← ih, Scope.find?, List.lookup_append]
    cases h : scope.find? name with
    | none =>
      unfold Scope.find? at h
      rw [h, Option.none_or]
      rfl
    | some type =>
      unfold Scope.find? at h
      rw [h, Option.some_or]

/-- Condensing the scopes around a block changes the meaning of no name. -/
theorem find?_condensed (c : Context) (name : String) : c.condensed.find? name = c.find? name := by
  have hfind : c.condensed.env.find? name = c.env.find? name := by
    rw [Env.find?_eq, Env.find?_eq, ← find?_flatten, ← find?_flatten]
    show (c.scope.find? name).or (Scope.find? [c.outer.flatten].flatten name) = _
    rw [List.flatten_singleton]
    rfl
  exact hfind

end Context

open Check

/-- Checks of an expression have the same outcome wherever its free names mean the same. -/
theorem Expr.outcome_congr (e : Expr) {c other : Context}
    (h : ∀ name ∈ e.naming.free, c.find? name = other.find? name) :
    e.check.outcome c = e.check.outcome other := by
  have hmeaning : Env.SameMeaning e.naming.free c.env other.env := h
  rw [(e.check_keeps c).outcome_eq, (e.check_keeps other).outcome_eq, e.typeIn_congr hmeaning]

/-- Checks of a statement have the same outcome wherever its surroundings look alike to it. -/
theorem Stmt.outcome_congr (s : Stmt) {c other : Context}
    (h : ∀ name ∈ s.naming.free, c.find? name = other.find? name)
    (hvacancy : ∀ name ∈ s.declared,
      (c.scope.find? name).isSome = (other.scope.find? name).isSome)
    (hresult : c.results.head? = other.results.head?) :
    s.check.outcome c = s.check.outcome other := by
  have halike : Env.Alike s.naming.free s.declared c.env other.env := ⟨h, hvacancy, hresult⟩
  rw [(s.check_agrees c).outcome_eq, (s.check_agrees other).outcome_eq, s.checkIn_congr halike]

/-- **Visibility**: the type or the fault of an expression depends only on the innermost
declarations of the names that are free in it. The outcome of a statement depends on these, on
whether the innermost scope has the name that it declares, and on the innermost result type. So it
is the same when all outer scopes are made into one and all outer bodies are left. -/
theorem check_depends_on_visible :
    (∀ (e : Expr) (c other : Context),
      (∀ name ∈ e.naming.free, c.find? name = other.find? name) →
        e.check.outcome c = e.check.outcome other) ∧
    (∀ (s : Stmt) (c other : Context),
      (∀ name ∈ s.naming.free, c.find? name = other.find? name) →
      (∀ name ∈ s.declared, (c.scope.find? name).isSome = (other.scope.find? name).isSome) →
      c.results.head? = other.results.head? →
        s.check.outcome c = s.check.outcome other) ∧
    (∀ (e : Expr) (c : Context), e.check.outcome c.condensed = e.check.outcome c) ∧
    ∀ (s : Stmt) (c : Context), s.check.outcome c.condensed = s.check.outcome c := by
  refine ⟨fun e _ _ h => e.outcome_congr h, fun s _ _ h hv hr => s.outcome_congr h hv hr,
    fun e c => ?_, fun s c => ?_⟩
  · exact e.outcome_congr fun name _ => c.find?_condensed name
  · refine s.outcome_congr (fun name _ => c.find?_condensed name) (fun _ _ => rfl) ?_
    obtain ⟨scope, outer, results⟩ := c
    cases results with
    | nil => rfl
    | cons result results => rfl

/-- Two contexts in which `let x : int <- x;` has the same outcome: the first has further
declarations, one of `x` among them that is hidden, and two more bodies. -/
theorem shadowedContexts_alike :
    (Stmt.letVar "x" .int (Factor.var "x" []).toExpr).check.outcome
        ⟨[("k", .bool)], [[("x", .int)], [("x", .float), ("y", .bool)]], [.int, .bool]⟩ =
      (Stmt.letVar "x" .int (Factor.var "x" []).toExpr).check.outcome
        ⟨[], [[("x", .int)]], [.int]⟩ := by
  refine check_depends_on_visible.2.1 _ _ _ (fun name hname => ?_) (fun name hname => ?_) rfl
  · obtain rfl : name = "x" := Finset.mem_singleton.1 hname
    rfl
  · obtain rfl : name = "x" := List.mem_singleton.1 hname
    rfl

end FrontEnd
