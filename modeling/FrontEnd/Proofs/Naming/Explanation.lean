import FrontEnd.Proofs.Naming.Occurrences

/-!
# Faults that names explain

`Naming.Explains` says of the result of a rule what the names of its tree tell about it: without a
fault all names are in order, and each fault about names or returns is one that the tree has. Here
are the elementary rules and those that put results together.
-/

namespace FrontEnd

namespace Scope

/-- The names that a scope declares, latest first. -/
def names (scope : Scope) : List String := scope.map Prod.fst

/-- A name is found in a scope exactly if it is declared there. -/
theorem find?_isSome_iff {scope : Scope} {name : String} :
    (scope.find? name).isSome ↔ name ∈ scope.names := by
  induction scope with
  | nil => simp [names]
  | cons declaration scope ih =>
    rw [find?_cons, names, List.map_cons, List.mem_cons]
    split
    · next h => simp [h]
    · next h =>
      rw [ih]
      exact (or_iff_right h).symm

end Scope

namespace Env

/-- All names that are declared around a tree. -/
def names (env : Env) : List String := env.scopes.flatMap Scope.names

/-- The names of surroundings are those of their scopes. -/
theorem mem_names {env : Env} {name : String} :
    name ∈ env.names ↔ ∃ scope ∈ env.scopes, name ∈ scope.names := by
  rw [names, List.mem_flatMap]

end Env

/-- The names of a tree explain the result of its rule in `env`. -/
def Naming.Explains {α : Type} (n : Naming) (env : Env) : Except Fault α → Prop
  | .ok _ =>
    (∀ name ∈ n.free, name ∈ env.names) ∧ n.doubled = ∅ ∧
      (n.returns = true → env.result?.isSome = true)
  | .error (.notDeclared name) => name ∈ n.free ∧ name ∉ env.names
  | .error (.alreadyDeclared name) => name ∈ n.doubled
  | .error .returnOutsideFunction => n.returns = true ∧ env.result? = none
  | .error _ => True

namespace Naming

variable {α β : Type} {a b n m : Naming} {env inner : Env} {r : Except Fault α}
  {g : α → Except Fault β}

/-! ## Results in turn -/

/-- A fault is explained by other names too if they say as much about it. -/
theorem Explains.fault {fault : Fault} (h : n.Explains inner (.error fault : Except Fault α))
    (hfree : ∀ name ∈ n.free, name ∉ inner.names → name ∈ m.free ∧ name ∉ env.names)
    (hdoubled : n.doubled ⊆ m.doubled)
    (hreturns : n.returns = true → inner.result? = none →
      m.returns = true ∧ env.result? = none) :
    m.Explains env (.error fault : Except Fault β) := by
  cases fault with
  | notDeclared name => exact hfree name h.1 h.2
  | alreadyDeclared name => exact hdoubled h
  | returnOutsideFunction => exact hreturns h.1 h.2
  | _ => trivial

/-- Only the declared names and whether there is a body around matter. -/
theorem Explains.congr (h : n.Explains inner r)
    (hnames : ∀ name, name ∈ inner.names ↔ name ∈ env.names)
    (hresult : inner.result? = env.result?) : n.Explains env r := by
  cases r with
  | ok _ =>
    obtain ⟨hfree, hdoubled, hreturns⟩ := h
    refine ⟨fun name hname => (hnames name).1 (hfree name hname), hdoubled, ?_⟩
    rwa [← hresult]
  | error fault =>
    have hfree : ∀ name ∈ n.free, name ∉ inner.names → name ∈ n.free ∧ name ∉ env.names :=
      fun name hname hmissing => ⟨hname, mt (hnames name).2 hmissing⟩
    exact h.fault hfree subset_rfl fun hreturns hnone => ⟨hreturns, hresult ▸ hnone⟩

/-- What comes behind may also see what is declared in between. -/
theorem Explains.seq {declared : List String} (ha : a.Explains env r)
    (hb : ∀ x, r = .ok x → b.Explains inner (g x))
    (hnames : ∀ name, name ∈ inner.names ↔ name ∈ declared ∨ name ∈ env.names)
    (hresult : inner.result? = env.result?) :
    (a.join (b.behind declared)).Explains env (r >>= g) := by
  cases r with
  | error fault =>
    -- The first part has the fault, and what is free in it is free in the whole.
    have hfree : ∀ name ∈ a.free, name ∉ env.names →
        name ∈ (a.join (b.behind declared)).free ∧ name ∉ env.names :=
      fun name hname hmissing => ⟨Finset.mem_union_left _ hname, hmissing⟩
    refine ha.fault hfree Finset.subset_union_left fun hreturns hnone => ⟨?_, hnone⟩
    rw [join, hreturns, Bool.true_or]
  | ok x =>
    have hb := hb x rfl
    show (a.join (b.behind declared)).Explains env (g x)
    cases hg : g x with
    | error fault =>
      rw [hg] at hb
      -- The second part has it. A free name of this part is free in the whole unless it has been
      -- declared in between, and then it is in scope.
      have hfree : ∀ name ∈ b.free, name ∉ inner.names →
          name ∈ (a.join (b.behind declared)).free ∧ name ∉ env.names := by
        intro name hname hmissing
        rw [hnames, not_or, ← List.mem_toFinset] at hmissing
        have hbehind : name ∈ (b.behind declared).free := Finset.mem_sdiff.2 ⟨hname, hmissing.1⟩
        exact ⟨Finset.mem_union_right _ hbehind, hmissing.2⟩
      refine hb.fault hfree Finset.subset_union_right fun hreturns hnone => ⟨?_, hresult ▸ hnone⟩
      rw [join, behind, hreturns, Bool.or_true]
    | ok y =>
      rw [hg] at hb
      obtain ⟨hfree₁, hdoubled₁, hreturns₁⟩ := ha
      obtain ⟨hfree₂, hdoubled₂, hreturns₂⟩ := hb
      refine ⟨fun name hname => ?_, ?_, fun hreturns => ?_⟩
      · obtain hname | hname := Finset.mem_union.1 hname
        · exact hfree₁ name hname
        · obtain ⟨hname, hundeclared⟩ := Finset.mem_sdiff.1 hname
          rw [List.mem_toFinset] at hundeclared
          exact ((hnames name).1 (hfree₂ name hname)).resolve_left hundeclared
      · rw [join, behind, hdoubled₁, hdoubled₂, Finset.empty_union]
      · obtain hreturns | hreturns := Bool.or_eq_true_iff.1 hreturns
        · exact hreturns₁ hreturns
        · exact hresult ▸ hreturns₂ hreturns

/-- Behind no declaration, all free names stay free. -/
theorem behind_nil (n : Naming) : n.behind [] = n := by
  rw [behind, List.toFinset_nil, Finset.sdiff_empty]

/-- Rules in sequence are explained by the names of both parts. -/
theorem Explains.bind (ha : a.Explains env r) (hb : ∀ x, b.Explains env (g x)) :
    (a.join b).Explains env (r >>= g) := by
  rw [← b.behind_nil]
  refine ha.seq (fun x _ => hb x) (fun name => ?_) rfl
  rw [or_iff_right List.not_mem_nil]

/-- What names nothing adds nothing behind. -/
theorem join_silent (n : Naming) : n.join silent = n := by
  rw [join, silent, Finset.union_empty, Finset.union_empty, Bool.or_false]

/-- What names nothing adds nothing in front. -/
theorem silent_join (n : Naming) : silent.join n = n := by
  rw [join, silent, Finset.empty_union, Finset.empty_union, Bool.false_or]

/-- A rule about types may come behind. -/
theorem Explains.bind_silent (ha : a.Explains env r) (hg : ∀ x, silent.Explains env (g x)) :
    a.Explains env (r >>= g) := by
  rw [← a.join_silent]
  exact ha.bind hg

/-- A rule about types may come before. -/
theorem Explains.silent_bind (hr : silent.Explains env r) (hb : ∀ x, b.Explains env (g x)) :
    b.Explains env (r >>= g) := by
  rw [← b.silent_join]
  exact hr.bind hb

/-! ## The rules about types -/

/-- An answer that needs no names. -/
theorem explains_ok (x : α) : silent.Explains env (.ok x) :=
  ⟨fun _ h => absurd h (Finset.notMem_empty _), rfl, fun h => Bool.noConfusion h⟩

/-- A type that is demanded in vain is no fault of names. -/
theorem explains_demand (expected received : Ty) :
    silent.Explains env (Typing.demand expected received) := by
  unfold Typing.demand
  split
  · exact explains_ok ()
  · trivial

/-- Operands of different types are no fault of names. -/
theorem explains_joinable (head tail : Ty) :
    silent.Explains env (Typing.joinable head tail) := by
  unfold Typing.joinable
  split
  · split
    · exact explains_ok ()
    · trivial
  · trivial

/-- Sides that cannot be compared are no fault of names. -/
theorem explains_comparable (left : Ty) (relop : String) (right : Ty) :
    silent.Explains env (Typing.comparable left relop right) := by
  unfold Typing.comparable
  split
  · split
    · trivial
    · exact explains_ok ()
  · trivial

/-- Entries that do not agree are no fault of names. -/
theorem explains_array (types : List Ty) : silent.Explains env (Typing.array types) := by
  unfold Typing.array
  split
  · exact explains_ok _
  · exact explains_ok _
  · trivial

/-- Too many indices are no fault of names. -/
theorem explains_indexed (name : String) (declared : Ty) (indices : Nat) :
    silent.Explains env (Typing.indexed name declared indices) := by
  unfold Typing.indexed
  split
  · exact explains_ok _
  · trivial

/-- A callee that is no function and arguments that do not fit it are no fault of names. -/
theorem explains_signature (callee : String) (declared : Ty) (args : List Arg) :
    silent.Explains env (Typing.signature callee declared args) := by
  unfold Typing.signature
  split
  · trivial
  · split
    · trivial
    · split
      · trivial
      · exact explains_ok _

/-- An argument of another type than its parameter is no fault of names. -/
theorem explains_argument (params : List Param) (name : String) (received : Ty) :
    silent.Explains env (Typing.argument params name received) := by
  unfold Typing.argument
  split
  · exact explains_ok ()
  · split
    · exact explains_ok ()
    · trivial

/-- A parameter of a closure that repeats a name has a fault of its own. -/
theorem explains_newParam (seen : List String) (name : String) :
    silent.Explains env (Typing.newParam seen name) := by
  unfold Typing.newParam
  split
  · trivial
  · exact explains_ok ()

/-! ## The rules about names and returns -/

/-- A name that is not declared is a free one. -/
theorem explains_lookup (name : String) : (use name).Explains env (env.lookup name) := by
  unfold Env.lookup
  split
  · next type h =>
    obtain ⟨scope, hscope, hfind⟩ := List.exists_of_findSome?_eq_some h
    refine ⟨fun v hv => ?_, rfl, fun hreturns => Bool.noConfusion hreturns⟩
    rw [Finset.mem_singleton.1 hv, Env.mem_names]
    exact ⟨scope, hscope, Scope.find?_isSome_iff.1 (Option.isSome_of_eq_some hfind)⟩
  · next h =>
    refine ⟨Finset.mem_singleton_self name, fun hmem => ?_⟩
    obtain ⟨scope, hscope, hname⟩ := Env.mem_names.1 hmem
    have hsome := Scope.find?_isSome_iff.2 hname
    rw [List.findSome?_eq_none_iff.1 h scope hscope] at hsome
    exact Bool.noConfusion hsome

/-- A return outside of bodies is seen in the tree, and nothing else is a fault of returns. -/
theorem explains_resultType : ret.Explains env env.resultType := by
  unfold Env.resultType
  split
  · next result h =>
    refine ⟨fun _ h => absurd h (Finset.notMem_empty _), rfl, fun _ => ?_⟩
    rw [h, Option.isSome_some]
  · next h => exact ⟨rfl, h⟩

/-- A name that is declared already is one that its block repeats. -/
theorem explains_vacant (hscope : env.scope.names.Nodup) (name : String) :
    (silent.block (env.scope.names ++ [name])).Explains env (env.vacant name) := by
  unfold Env.vacant
  split
  · next h =>
    have hmem : 0 < env.scope.names.count name :=
      List.count_pos_iff.2 (Scope.find?_isSome_iff.1 h)
    have hcount : 1 < (env.scope.names ++ [name]).count name := by
      rw [List.count_append, List.count_singleton_self]
      omega
    exact Finset.mem_union_right _ (mem_repeated.2 hcount)
  · next h =>
    rw [Scope.find?_isSome_iff] at h
    have hnodup : (env.scope.names ++ [name]).Nodup := by
      rw [← List.concat_eq_append]
      exact hscope.concat h
    have hrepeated : (silent.block (env.scope.names ++ [name])).doubled = ∅ := by
      rw [block, repeated_eq_empty_iff.2 hnodup, Finset.union_empty]
      rfl
    exact ⟨(explains_ok ()).1, hrepeated, fun h => Bool.noConfusion h⟩

/-! ## Blocks and bodies -/

/-- A block is no body, and nothing is declared in it at first. -/
theorem Explains.of_block (h : n.Explains env.block r) : n.Explains env r :=
  h.congr (fun _ => Iff.rfl) rfl

/-- Declaring names in turn ends with a scope of all of them, or at one that is repeated. -/
theorem declareAll_spec : ∀ (declarations : List (String × Ty)) (scope : Scope),
    scope.names.Nodup →
    match scope.declareAll declarations with
    | .ok extended => extended = declarations.reverse ++ scope ∧ extended.names.Nodup
    | .error fault => ∃ name, fault = .alreadyDeclared name ∧
        1 < (declarations.map Prod.fst ++ scope.names).count name
  | [], scope, hscope => ⟨rfl, hscope⟩
  | (name, type) :: declarations, scope, hscope => by
    rw [Scope.declareAll, List.map_cons]
    by_cases hmem : name ∈ scope.names
    · have hdeclare : scope.declare name type = .error (.alreadyDeclared name) := by
        rw [Scope.declare, if_pos (Scope.find?_isSome_iff.2 hmem)]
      rw [hdeclare]
      refine ⟨name, rfl, ?_⟩
      have hcount := List.count_pos_iff.2 hmem
      rw [List.count_append, List.count_cons_self]
      omega
    · have hdeclare : scope.declare name type = pure ((name, type) :: scope) := by
        rw [Scope.declare, if_neg (mt Scope.find?_isSome_iff.1 hmem)]
        rfl
      have hextended : Scope.names ((name, type) :: scope) = name :: scope.names := rfl
      have hnodup : (Scope.names ((name, type) :: scope)).Nodup :=
        List.nodup_cons.2 ⟨hmem, hscope⟩
      have ih := declareAll_spec declarations ((name, type) :: scope) hnodup
      rw [hextended] at ih
      rw [hdeclare, pure_bind, List.reverse_cons, List.append_assoc]
      -- The name has only moved from the declarations to the scope, so it still counts.
      split at ih
      · exact ih
      · obtain ⟨v, rfl, hcount⟩ := ih
        refine ⟨v, rfl, ?_⟩
        rwa [List.perm_middle.count_eq] at hcount

/-- In a body its parameters are declared, and a return is in place. -/
theorem Explains.of_body {params declared : List String}
    (h : (n.block (params ++ declared)).Explains inner r)
    (hnames : ∀ name, name ∈ inner.names ↔ name ∈ params ∨ name ∈ env.names)
    (hresult : inner.result?.isSome = true) : (n.body params declared).Explains env r := by
  cases r with
  | ok _ =>
    obtain ⟨hfree, hdoubled, -⟩ := h
    refine ⟨fun name hname => ?_, hdoubled, fun hreturns => Bool.noConfusion hreturns⟩
    obtain ⟨hname, hparam⟩ := Finset.mem_sdiff.1 hname
    rw [List.mem_toFinset] at hparam
    exact ((hnames name).1 (hfree name hname)).resolve_left hparam
  | error fault =>
    -- A name that is missing in the body is no parameter, so it is missing around it as well.
    have hfree : ∀ name ∈ n.free, name ∉ inner.names →
        name ∈ (n.body params declared).free ∧ name ∉ env.names := by
      intro name hname hmissing
      rw [hnames, not_or, ← List.mem_toFinset] at hmissing
      exact ⟨Finset.mem_sdiff.2 ⟨hname, hmissing.1⟩, hmissing.2⟩
    refine h.fault hfree subset_rfl fun _ hnone => ?_
    rw [hnone] at hresult
    exact Bool.noConfusion hresult

/-- A body is explained by its names, less those of its parameters, and by the parameter names that
it repeats. -/
theorem explains_body {params : List Param} {result : Ty} {declared : List String}
    {rule : Env → Except Fault α}
    (h : ∀ inner : Env, inner.scope.names.Nodup →
      (n.block (inner.scope.names ++ declared)).Explains inner (rule inner)) :
    (n.body (params.map Param.name) declared).Explains env (env.body params result >>= rule) := by
  have hspec := declareAll_spec (params.map Param.declaration) [] List.nodup_nil
  have hparams : (params.map Param.declaration).map Prod.fst = params.map Param.name :=
    List.map_map ..
  rw [Env.body, Scope.ofList_eq, bind_assoc]
  split at hspec
  · next scope hscope =>
    obtain ⟨rfl, hnodup⟩ := hspec
    rw [List.append_nil] at hscope hnodup
    rw [hscope]
    have hinner : Scope.names (params.map Param.declaration).reverse =
        (params.map Param.name).reverse := by
      rw [Scope.names, List.map_reverse, hparams]
    have hperm : (Scope.names (params.map Param.declaration).reverse).Perm
        (params.map Param.name) := hinner ▸ List.reverse_perm _
    -- A scope holds its names in reverse, which does not matter for the repeated ones.
    have hblock : n.block (Scope.names (params.map Param.declaration).reverse ++ declared) =
        n.block (params.map Param.name ++ declared) := by
      rw [block, block, repeated_perm (hperm.append_right declared)]
    have hrule := h ⟨(params.map Param.declaration).reverse, env.scopes, some result⟩ hnodup
    rw [hblock] at hrule
    refine hrule.of_body (fun name => ?_) rfl
    rw [Env.names, Env.scopes, List.flatMap_cons, List.mem_append, hperm.mem_iff]
    exact Iff.rfl
  · next fault hfault =>
    obtain ⟨name, rfl, hcount⟩ := hspec
    rw [hparams, Scope.names, List.map_nil, List.append_nil] at hcount
    rw [hfault]
    -- A parameter that is repeated among the parameters is repeated in the block.
    have hcount : 1 < (params.map Param.name ++ declared).count name := by
      rw [List.count_append]
      omega
    exact Finset.mem_union_right _ (mem_repeated.2 hcount)

end Naming

end FrontEnd
