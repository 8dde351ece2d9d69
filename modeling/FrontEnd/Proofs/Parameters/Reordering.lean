import FrontEnd.Syntax.Type
import Mathlib.Data.List.Forall2
import Mathlib.Data.Option.Basic

/-!
# Reordered parameters

Two trees are reorderings of each other if they differ in the order of parameters alone. Lists of
parameters with different names may be permuted wherever they stand: in types, in declared functions
and in closures, and at the same time within the types and defaults of the parameters themselves.

- `Ty.Reordered`, `Expr.Reordered`, `Stmt.Reordered`, `Program.Reordered`: the relation on trees.
- `Params.Matched`: parameters that are reorderings of each other place by place.
- `Params.Reordered.covers`, `Params.Reordered.find?`: each parameter of one list is found in the
  other, under the same name.
- `Ty.Reordered.agrees_congr`: agreement of types does not depend on the order of parameters.
-/

namespace FrontEnd

/-! ## Trees -/

mutual

/-- Types that differ in the order of parameters alone, at any depth. -/
inductive Ty.Reordered : Ty → Ty → Prop
  | prim (name : String) (depth : Nat) : Ty.Reordered (.prim name depth) (.prim name depth)
  | fn {ps qs : List Param} {r s : Ty} {depth : Nat} (hparams : Params.Reordered ps qs)
      (hresult : Ty.Reordered r s) : Ty.Reordered (.fn ps r depth) (.fn qs s depth)

/-- Parameters that are reorderings of each other place by place, under the same names. -/
inductive Params.Matched : List Param → List Param → Prop
  | nil : Params.Matched [] []
  | cons {name : String} {t u : Ty} {d e : Option Expr} {ps qs : List Param}
      (htype : Ty.Reordered t u) (hdefault : Default.Reordered d e)
      (hrest : Params.Matched ps qs) : Params.Matched (⟨name, t, d⟩ :: ps) (⟨name, u, e⟩ :: qs)

/-- Parameters that match, and that may then be permuted if their names are different. -/
inductive Params.Reordered : List Param → List Param → Prop
  | inOrder {ps qs : List Param} (hmatched : Params.Matched ps qs) : Params.Reordered ps qs
  | permuted {ps matched qs : List Param} (hdistinct : (ps.map Param.name).Nodup)
      (hmatched : Params.Matched ps matched) (hperm : matched.Perm qs) : Params.Reordered ps qs

/-- Defaults that are reorderings of each other, or both missing. -/
inductive Default.Reordered : Option Expr → Option Expr → Prop
  | none : Default.Reordered none none
  | some {e f : Expr} (hvalue : Expr.Reordered e f) : Default.Reordered (some e) (some f)

/-- Expressions that differ in the order of the parameters of closures, anywhere in them. -/
inductive Expr.Reordered : Expr → Expr → Prop
  | cond {c d : Condition} (h : Condition.Reordered c d) : Expr.Reordered (.cond c) (.cond d)
  | add {a b : AddExpr} (h : AddExpr.Reordered a b) : Expr.Reordered (.add a) (.add b)
  | array {es fs : List Expr} (h : Exprs.Reordered es fs) : Expr.Reordered (.array es) (.array fs)
  | closure {ps qs : List Param} {r s : Ty} {body other : List Stmt}
      (hparams : Params.Reordered ps qs) (hresult : Ty.Reordered r s)
      (hbody : Stmts.Reordered body other) :
      Expr.Reordered (.closure ps r body) (.closure qs s other)

inductive Exprs.Reordered : List Expr → List Expr → Prop
  | nil : Exprs.Reordered [] []
  | cons {e f : Expr} {es fs : List Expr} (hfirst : Expr.Reordered e f)
      (hrest : Exprs.Reordered es fs) : Exprs.Reordered (e :: es) (f :: fs)

/-- Conditions with the same operators whose sides are reorderings of each other. -/
inductive Condition.Reordered : Condition → Condition → Prop
  | single {l l' r r' : AddExpr} {relop : String} (hleft : AddExpr.Reordered l l')
      (hright : AddExpr.Reordered r r') :
      Condition.Reordered (.single l relop r) (.single l' relop r')
  | chain {l l' r r' : AddExpr} {relop boolop : String} {next next' : Condition}
      (hleft : AddExpr.Reordered l l') (hright : AddExpr.Reordered r r')
      (hnext : Condition.Reordered next next') :
      Condition.Reordered (.chain l relop r boolop next) (.chain l' relop r' boolop next')

inductive AddExpr.Reordered : AddExpr → AddExpr → Prop
  | single {t u : Term} (h : Term.Reordered t u) : AddExpr.Reordered (.single t) (.single u)
  | chain {t u : Term} {addop : String} {next next' : AddExpr} (hhead : Term.Reordered t u)
      (htail : AddExpr.Reordered next next') :
      AddExpr.Reordered (.chain t addop next) (.chain u addop next')

inductive Term.Reordered : Term → Term → Prop
  | single {f g : Factor} (h : Factor.Reordered f g) : Term.Reordered (.single f) (.single g)
  | chain {f g : Factor} {mulop : String} {next next' : Term} (hhead : Factor.Reordered f g)
      (htail : Term.Reordered next next') :
      Term.Reordered (.chain f mulop next) (.chain g mulop next')

/-- Factors of one form. The arguments of a call stay in their order. -/
inductive Factor.Reordered : Factor → Factor → Prop
  | var {name : String} {is js : List Expr} (hindices : Exprs.Reordered is js) :
      Factor.Reordered (.var name is) (.var name js)
  | call {callee : String} {as bs : List Arg} (hargs : Args.Reordered as bs) :
      Factor.Reordered (.call callee as) (.call callee bs)
  | int (value : Int) : Factor.Reordered (.int value) (.int value)
  | float (value : Binary64) : Factor.Reordered (.float value) (.float value)
  | paren {e f : Expr} (hinner : Expr.Reordered e f) : Factor.Reordered (.paren e) (.paren f)

inductive Args.Reordered : List Arg → List Arg → Prop
  | nil : Args.Reordered [] []
  | cons {name : String} {e f : Expr} {as bs : List Arg} (hvalue : Expr.Reordered e f)
      (hrest : Args.Reordered as bs) : Args.Reordered (⟨name, e⟩ :: as) (⟨name, f⟩ :: bs)

/-- Statements of one form that differ in the order of parameters, anywhere in them. -/
inductive Stmt.Reordered : Stmt → Stmt → Prop
  | ifThen {c d : Condition} {body body' : List Stmt} (hcondition : Condition.Reordered c d)
      (hbody : Stmts.Reordered body body') : Stmt.Reordered (.ifThen c body) (.ifThen d body')
  | ifElse {c d : Condition} {body body' otherwise otherwise' : List Stmt}
      (hcondition : Condition.Reordered c d) (hbody : Stmts.Reordered body body')
      (hotherwise : Stmts.Reordered otherwise otherwise') :
      Stmt.Reordered (.ifElse c body otherwise) (.ifElse d body' otherwise')
  | loop {c d : Condition} {body body' : List Stmt} (hcondition : Condition.Reordered c d)
      (hbody : Stmts.Reordered body body') : Stmt.Reordered (.loop c body) (.loop d body')
  | assign {name : String} {e f : Expr} (hvalue : Expr.Reordered e f) :
      Stmt.Reordered (.assign name e) (.assign name f)
  | ret {e f : Expr} (hvalue : Expr.Reordered e f) : Stmt.Reordered (.ret e) (.ret f)
  | letVar {name : String} {t u : Ty} {e f : Expr} (htype : Ty.Reordered t u)
      (hvalue : Expr.Reordered e f) : Stmt.Reordered (.letVar name t e) (.letVar name u f)
  | letFun {name : String} {ps qs : List Param} {r s : Ty} {body body' : List Stmt}
      (hparams : Params.Reordered ps qs) (hresult : Ty.Reordered r s)
      (hbody : Stmts.Reordered body body') :
      Stmt.Reordered (.letFun name ps r body) (.letFun name qs s body')
  | call {callee : String} {as bs : List Arg} (hargs : Args.Reordered as bs) :
      Stmt.Reordered (.call callee as) (.call callee bs)

inductive Stmts.Reordered : List Stmt → List Stmt → Prop
  | nil : Stmts.Reordered [] []
  | cons {s s' : Stmt} {rest rest' : List Stmt} (hfirst : Stmt.Reordered s s')
      (hrest : Stmts.Reordered rest rest') : Stmts.Reordered (s :: rest) (s' :: rest')

end

/-- Programs that differ in the order of parameters alone. -/
def Program.Reordered (p q : Program) : Prop := Stmts.Reordered p.body q.body

/-! ## Every tree is a reordering of itself -/

mutual

/-- A type is a reordering of itself. -/
theorem Ty.Reordered.refl : ∀ t : Ty, t.Reordered t
  | .prim name depth => .prim name depth
  | .fn params result _ => .fn (.inOrder (Params.Matched.refl params)) (Ty.Reordered.refl result)

/-- Parameters match themselves, also where a name is repeated. -/
theorem Params.Matched.refl : ∀ params : List Param, Params.Matched params params
  | [] => .nil
  | ⟨_, type, default?⟩ :: params =>
    .cons (Ty.Reordered.refl type) (Default.Reordered.refl default?) (Params.Matched.refl params)

theorem Default.Reordered.refl : ∀ default? : Option Expr, Default.Reordered default? default?
  | none => .none
  | some value => .some (Expr.Reordered.refl value)

/-- An expression is a reordering of itself. -/
theorem Expr.Reordered.refl : ∀ e : Expr, e.Reordered e
  | .cond condition => .cond (Condition.Reordered.refl condition)
  | .add sum => .add (AddExpr.Reordered.refl sum)
  | .array entries => .array (Exprs.Reordered.refl entries)
  | .closure params result body =>
    .closure (.inOrder (Params.Matched.refl params)) (Ty.Reordered.refl result)
      (Stmts.Reordered.refl body)

theorem Exprs.Reordered.refl : ∀ es : List Expr, Exprs.Reordered es es
  | [] => .nil
  | e :: es => .cons (Expr.Reordered.refl e) (Exprs.Reordered.refl es)

theorem Condition.Reordered.refl : ∀ condition : Condition, condition.Reordered condition
  | .single left _ right => .single (AddExpr.Reordered.refl left) (AddExpr.Reordered.refl right)
  | .chain left _ right _ next =>
    .chain (AddExpr.Reordered.refl left) (AddExpr.Reordered.refl right)
      (Condition.Reordered.refl next)

theorem AddExpr.Reordered.refl : ∀ sum : AddExpr, sum.Reordered sum
  | .single term => .single (Term.Reordered.refl term)
  | .chain term _ next => .chain (Term.Reordered.refl term) (AddExpr.Reordered.refl next)

theorem Term.Reordered.refl : ∀ term : Term, term.Reordered term
  | .single factor => .single (Factor.Reordered.refl factor)
  | .chain factor _ next => .chain (Factor.Reordered.refl factor) (Term.Reordered.refl next)

theorem Factor.Reordered.refl : ∀ factor : Factor, factor.Reordered factor
  | .var _ indices => .var (Exprs.Reordered.refl indices)
  | .call _ args => .call (Args.Reordered.refl args)
  | .int value => .int value
  | .float value => .float value
  | .paren inner => .paren (Expr.Reordered.refl inner)

theorem Args.Reordered.refl : ∀ args : List Arg, Args.Reordered args args
  | [] => .nil
  | ⟨_, value⟩ :: args => .cons (Expr.Reordered.refl value) (Args.Reordered.refl args)

/-- A statement is a reordering of itself. -/
theorem Stmt.Reordered.refl : ∀ s : Stmt, s.Reordered s
  | .ifThen condition body =>
    .ifThen (Condition.Reordered.refl condition) (Stmts.Reordered.refl body)
  | .ifElse condition body otherwise =>
    .ifElse (Condition.Reordered.refl condition) (Stmts.Reordered.refl body)
      (Stmts.Reordered.refl otherwise)
  | .loop condition body => .loop (Condition.Reordered.refl condition) (Stmts.Reordered.refl body)
  | .assign _ value => .assign (Expr.Reordered.refl value)
  | .ret value => .ret (Expr.Reordered.refl value)
  | .letVar _ type value => .letVar (Ty.Reordered.refl type) (Expr.Reordered.refl value)
  | .letFun _ params result body =>
    .letFun (.inOrder (Params.Matched.refl params)) (Ty.Reordered.refl result)
      (Stmts.Reordered.refl body)
  | .call _ args => .call (Args.Reordered.refl args)

/-- Statements are reorderings of themselves, so a single list in a program may be permuted and all
else left. -/
theorem Stmts.Reordered.refl : ∀ body : List Stmt, Stmts.Reordered body body
  | [] => .nil
  | s :: rest => .cons (Stmt.Reordered.refl s) (Stmts.Reordered.refl rest)

end

/-! ## Related lists -/

/-- A search in related lists ends at related elements, or in neither list. -/
theorem find?_forall₂ {α β : Type} {R : α → β → Prop} {p : α → Bool} {q : β → Bool} {xs : List α}
    {ys : List β} (h : List.Forall₂ R xs ys) (hpq : ∀ {x y}, R x y → p x = q y) :
    Option.Rel R (xs.find? p) (ys.find? q) := by
  induction h with
  | nil => exact .none
  | @cons x y xs ys hxy _ ih =>
    rw [List.find?_cons, List.find?_cons, hpq hxy]
    cases q y with
    | true => exact .some hxy
    | false => exact ih

/-- Each element of either list is related to one of the other. -/
def Covers {α β : Type} (R : α → β → Prop) (xs : List α) (ys : List β) : Prop :=
  (∀ x ∈ xs, ∃ y ∈ ys, R x y) ∧ ∀ y ∈ ys, ∃ x ∈ xs, R x y

namespace Covers

variable {α β α' β' : Type} {R : α → β → Prop} {xs : List α} {ys zs : List β}

/-- Lists that are related place by place cover each other. -/
theorem of_forall₂ (h : List.Forall₂ R xs ys) : Covers R xs ys := by
  induction h with
  | nil => exact ⟨nofun, nofun⟩
  | cons hxy _ ih =>
    refine ⟨List.forall_mem_cons.2 ⟨⟨_, .head _, hxy⟩, fun x hx => ?_⟩,
      List.forall_mem_cons.2 ⟨⟨_, .head _, hxy⟩, fun y hy => ?_⟩⟩
    · obtain ⟨y, hy, hxy⟩ := ih.1 x hx
      exact ⟨y, .tail _ hy, hxy⟩
    · obtain ⟨x, hx, hxy⟩ := ih.2 y hy
      exact ⟨x, .tail _ hx, hxy⟩

/-- Covering does not depend on the order of the lists. -/
theorem perm (h : Covers R xs ys) (hperm : ys.Perm zs) : Covers R xs zs := by
  refine ⟨fun x hx => ?_, fun z hz => h.2 z (hperm.mem_iff.2 hz)⟩
  obtain ⟨y, hy, hxy⟩ := h.1 x hx
  exact ⟨y, hperm.mem_iff.1 hy, hxy⟩

/-- What holds of all elements of a list holds of all that they are related to. -/
theorem forall_iff {P : α → Prop} {Q : β → Prop} (h : Covers R xs ys)
    (hPQ : ∀ x y, R x y → (P x ↔ Q y)) : (∀ x ∈ xs, P x) ↔ ∀ y ∈ ys, Q y := by
  constructor
  · intro hP y hy
    obtain ⟨x, hx, hxy⟩ := h.2 y hy
    exact (hPQ x y hxy).1 (hP x hx)
  · intro hQ x hx
    obtain ⟨y, hy, hxy⟩ := h.1 x hx
    exact (hPQ x y hxy).2 (hQ y hy)

/-- Covering is a matter of the elements: it carries over to lists whose elements correspond. -/
theorem congr {S : α' → β' → Prop} {A : α → α' → Prop} {B : β → β' → Prop} {xs' : List α'}
    {ys' : List β'} (hxs : Covers A xs xs') (hys : Covers B ys ys')
    (hRS : ∀ x x' y y', A x x' → B y y' → (R x y ↔ S x' y')) :
    Covers R xs ys ↔ Covers S xs' ys' := by
  constructor
  · rintro ⟨hforth, hback⟩
    refine ⟨fun x' hx' => ?_, fun y' hy' => ?_⟩
    · obtain ⟨x, hx, hxx'⟩ := hxs.2 x' hx'
      obtain ⟨y, hy, hxy⟩ := hforth x hx
      obtain ⟨y', hy', hyy'⟩ := hys.1 y hy
      exact ⟨y', hy', (hRS x x' y y' hxx' hyy').1 hxy⟩
    · obtain ⟨y, hy, hyy'⟩ := hys.2 y' hy'
      obtain ⟨x, hx, hxy⟩ := hback y hy
      obtain ⟨x', hx', hxx'⟩ := hxs.1 x hx
      exact ⟨x', hx', (hRS x x' y y' hxx' hyy').1 hxy⟩
  · rintro ⟨hforth, hback⟩
    refine ⟨fun x hx => ?_, fun y hy => ?_⟩
    · obtain ⟨x', hx', hxx'⟩ := hxs.1 x hx
      obtain ⟨y', hy', hxy'⟩ := hforth x' hx'
      obtain ⟨y, hy, hyy'⟩ := hys.2 y' hy'
      exact ⟨y, hy, (hRS x x' y y' hxx' hyy').2 hxy'⟩
    · obtain ⟨y', hy', hyy'⟩ := hys.1 y hy
      obtain ⟨x', hx', hxy'⟩ := hback y' hy'
      obtain ⟨x, hx, hxx'⟩ := hxs.2 x' hx'
      exact ⟨x, hx, (hRS x x' y y' hxx' hyy').2 hxy'⟩

end Covers

/-! ## Parameters -/

/-- Parameters of one name, with types and defaults that are reorderings of each other. -/
structure Param.Reordered (p q : Param) : Prop where
  name : p.name = q.name
  type : p.type.Reordered q.type
  value : Default.Reordered p.default? q.default?

/-- Matching is a relation of the single parameters. -/
theorem Params.Matched.forall₂ : ∀ {ps qs : List Param}, Params.Matched ps qs →
    List.Forall₂ Param.Reordered ps qs
  | _, _, .nil => .nil
  | _, _, .cons htype hdefault hrest => .cons ⟨rfl, htype, hdefault⟩ hrest.forall₂

/-- Matching parameters have the same names in the same order. -/
theorem Params.Matched.names_eq {ps qs : List Param} (h : Params.Matched ps qs) :
    ps.map Param.name = qs.map Param.name := by
  rw [← List.forall₂_eq_eq_eq, List.forall₂_map_left_iff, List.forall₂_map_right_iff]
  exact h.forall₂.imp fun _ _ hpq => hpq.name

/-- Among parameters of different names, each is found under its own. -/
theorem findParam?_eq_some_iff {params : List Param} {name : String} {p : Param}
    (hdistinct : (params.map Param.name).Nodup) :
    findParam? params name = some p ↔ p ∈ params ∧ p.name = name := by
  unfold findParam?
  induction params with
  | nil => simp
  | cons q params ih =>
    rw [List.map_cons, List.nodup_cons] at hdistinct
    rw [List.find?_cons]
    by_cases hname : q.name = name
    · rw [beq_iff_eq.2 hname]
      constructor
      · rintro ⟨⟩
        exact ⟨.head _, hname⟩
      · rintro ⟨hmem, hp⟩
        obtain rfl | hmem := List.mem_cons.1 hmem
        · rfl
        · exact absurd (List.mem_map.2 ⟨p, hmem, hp.trans hname.symm⟩) hdistinct.1
    · rw [beq_eq_false_iff_ne.2 hname]
      refine (ih hdistinct.2).trans (and_congr_left fun hp => ?_)
      rw [List.mem_cons, or_iff_right]
      rintro rfl
      exact hname hp

/-- So the order of parameters of different names does not matter to a search. -/
theorem findParam?_perm {ps qs : List Param} (hdistinct : (ps.map Param.name).Nodup)
    (h : ps.Perm qs) (name : String) : findParam? ps name = findParam? qs name := by
  ext p
  have hdistinct' : (qs.map Param.name).Nodup := (h.map Param.name).nodup_iff.1 hdistinct
  rw [findParam?_eq_some_iff hdistinct, findParam?_eq_some_iff hdistinct', h.mem_iff]

/-- A name leads to matching parameters, whichever it finds first. -/
theorem Params.Matched.find? {ps qs : List Param} (h : Params.Matched ps qs) (name : String) :
    Option.Rel Param.Reordered (findParam? ps name) (findParam? qs name) :=
  find?_forall₂ h.forall₂ fun hpq => by rw [hpq.name]

namespace Params.Reordered

variable {ps qs : List Param}

/-- Reordered parameters have the same names, perhaps in another order. -/
theorem names_perm (h : Params.Reordered ps qs) :
    (ps.map Param.name).Perm (qs.map Param.name) := by
  cases h with
  | inOrder hmatched => rw [hmatched.names_eq]
  | permuted _ hmatched hperm =>
    rw [hmatched.names_eq]
    exact hperm.map Param.name

/-- Reordered parameters repeat a name on both sides or on neither. -/
theorem nodup_iff (h : Params.Reordered ps qs) :
    (ps.map Param.name).Nodup ↔ (qs.map Param.name).Nodup :=
  h.names_perm.nodup_iff

/-- Each parameter of either list is one of the other, reordered. -/
theorem covers (h : Params.Reordered ps qs) : Covers Param.Reordered ps qs := by
  cases h with
  | inOrder hmatched => exact .of_forall₂ hmatched.forall₂
  | permuted _ hmatched hperm => exact (Covers.of_forall₂ hmatched.forall₂).perm hperm

/-- A name leads to the same parameter in both lists: where it is repeated, the order is kept. -/
theorem find? (h : Params.Reordered ps qs) (name : String) :
    Option.Rel Param.Reordered (findParam? ps name) (findParam? qs name) := by
  cases h with
  | inOrder hmatched => exact hmatched.find? name
  | permuted hdistinct hmatched hperm =>
    rw [hmatched.names_eq] at hdistinct
    rw [← findParam?_perm hdistinct hperm]
    exact hmatched.find? name

end Params.Reordered

/-! ## Types -/

namespace Ty.Reordered

variable {t u : Ty}

theorem depth_eq (h : t.Reordered u) : t.depth = u.depth := by
  cases h <;> rfl

theorem isAny_eq (h : t.Reordered u) : t.isAny = u.isAny := by
  cases h <;> rfl

theorem isArithmetic_eq (h : t.Reordered u) : t.isArithmetic = u.isArithmetic := by
  cases h <;> rfl

/-- Reordered types stay so with other array levels. -/
theorem withDepth (h : t.Reordered u) (depth : Nat) :
    (t.withDepth depth).Reordered (u.withDepth depth) := by
  cases h with
  | prim name _ => exact .prim name depth
  | fn hparams hresult => exact .fn hparams hresult

end Ty.Reordered

/-- Parameters of the same name that agree with the same types, up to the order of parameters. -/
def Param.SameAgreement (p q : Param) : Prop :=
  p.name = q.name ∧ ∀ {u v : Ty}, u.Reordered v → p.type.agrees u = q.type.agrees v

/-- Lists of parameters agree as those do that cover them. -/
theorem Params.agree_congr {ps ps' qs qs' : List Param}
    (hps : Covers Param.SameAgreement ps ps') (hqs : Covers Param.Reordered qs qs') :
    Params.agree ps qs = Params.agree ps' qs' := by
  rw [Bool.eq_iff_iff, Params.agree_iff, Params.agree_iff]
  refine Covers.congr hps hqs fun p p' q q' hp hq => ?_
  rw [Param.agrees, Param.agrees, hp.1, hq.name, hp.2 hq.type]

mutual

/-- Agreement of types does not depend on the order of parameters, on either side. -/
theorem Ty.Reordered.agrees_congr : ∀ {t t' : Ty}, t.Reordered t' →
    ∀ {u u' : Ty}, u.Reordered u' → t.agrees u = t'.agrees u'
  | _, _, .prim name depth, u, u', hu => by
    rw [Ty.agrees_eq, Ty.agrees_eq, hu.isAny_eq, hu.depth_eq]
    cases hu with
    | prim => rfl
    | fn => rfl
  | _, _, .fn hps hr, u, u', hu => by
    rw [Ty.agrees_eq, Ty.agrees_eq, hu.isAny_eq, hu.depth_eq]
    cases hu with
    | prim => rfl
    | fn hus hs =>
      rw [Ty.sameBase, Ty.sameBase, hr.agrees_congr hs,
        Params.agree_congr hps.sameAgreement hus.covers]
      rfl

/-- Each parameter of a list agrees with the same types as one of the reordered list. -/
theorem Params.Reordered.sameAgreement : ∀ {ps qs : List Param}, Params.Reordered ps qs →
    Covers Param.SameAgreement ps qs
  | _, _, .inOrder hmatched => .of_forall₂ hmatched.sameAgreement
  | _, _, .permuted _ hmatched hperm => (Covers.of_forall₂ hmatched.sameAgreement).perm hperm

/-- Matching parameters agree with the same types, place by place. -/
theorem Params.Matched.sameAgreement : ∀ {ps qs : List Param}, Params.Matched ps qs →
    List.Forall₂ Param.SameAgreement ps qs
  | _, _, .nil => .nil
  | _, _, .cons htype _ hrest => .cons ⟨rfl, htype.agrees_congr⟩ hrest.sameAgreement

end

end FrontEnd
