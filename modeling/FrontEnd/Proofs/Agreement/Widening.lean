import FrontEnd.Proofs.Agreement.Equivalence

/-!
# Wildcards widen agreement

A type becomes wider where a wildcard takes the place of a part of it: of the type itself, of the
type of a parameter or of a result, at any depth and under any number of array levels. What agrees
with a type agrees with every wider one.

Agreement is not transitive, and so this is no chain of agreements through the wildcard. What
carries over is each partner of each parameter: a parameter that covers another, or is covered by
it, still does after its type has become wider.

- `Ty.Widened`, `Params.Widened`: the same types with wildcards in some places.
- `Ty.Widened.agrees`: widening loses no agreement.
- `agrees_of_widened`: so wildcards only ever add to what a type agrees with, on both sides.
-/

namespace FrontEnd

/-! ## Wider types -/

mutual

/-- The type on the right is the one on the left with wildcards for some of its parts. -/
inductive Ty.Widened : Ty → Ty → Prop
  | wildcard (t : Ty) (depth : Nat) : Ty.Widened t (.any depth)
  | prim (name : String) (depth : Nat) : Ty.Widened (.prim name depth) (.prim name depth)
  | fn {ps qs : List Param} {r s : Ty} {depth : Nat} (hparams : Params.Widened ps qs)
      (hresult : Ty.Widened r s) : Ty.Widened (.fn ps r depth) (.fn qs s depth)

/-- Parameters of the same names with wider types, place by place. -/
inductive Params.Widened : List Param → List Param → Prop
  | nil : Params.Widened [] []
  | cons {name : String} {t u : Ty} {default? : Option Expr} {ps qs : List Param}
      (htype : Ty.Widened t u) (hrest : Params.Widened ps qs) :
      Params.Widened (⟨name, t, default?⟩ :: ps) (⟨name, u, default?⟩ :: qs)

end

mutual

/-- Every type is as wide as itself. -/
theorem Ty.Widened.refl : ∀ t : Ty, t.Widened t
  | .prim name depth => .prim name depth
  | .fn params result _ => .fn (Params.Widened.refl params) (Ty.Widened.refl result)

theorem Params.Widened.refl : ∀ params : List Param, Params.Widened params params
  | [] => .nil
  | ⟨_, type, _⟩ :: params => .cons (Ty.Widened.refl type) (Params.Widened.refl params)

end

/-! ## Agreement with wider types -/

/-- The wildcard agrees with every type. -/
theorem Ty.agrees_any (t : Ty) (depth : Nat) : t.agrees (.any depth) = true := by
  cases t with
  | prim name d => rw [any, agrees_prim_prim, beq_self_eq_true, Bool.or_true, Bool.true_or]
  | fn params result d => rw [any, agrees_fn_prim, beq_self_eq_true]

/-- A parameter of the same name whose type agrees with all that agrees with the type of the
first. -/
def Param.Widens (p q : Param) : Prop :=
  p.name = q.name ∧ ∀ t : Ty, t.agrees p.type = true → t.agrees q.type = true

/-- What agrees with a parameter agrees with a wider one. -/
theorem Param.Widens.agrees {o p q : Param} (h : p.Widens q) (hop : o.agrees p = true) :
    o.agrees q = true := by
  obtain ⟨hname, htype⟩ := h
  rw [Param.agrees_iff] at hop ⊢
  exact ⟨hop.1.trans hname, htype o.type hop.2⟩

/-- Parameters that agree with a list agree with a wider one. -/
theorem Params.agree_of_widens {os ps qs : List Param} (h : Params.agree os ps = true)
    (hwidens : List.Forall₂ Param.Widens ps qs) : Params.agree os qs = true := by
  rw [Params.agree_iff_covers] at h ⊢
  exact h.trans (.of_forall₂ hwidens) fun o _ p _ q _ hop hpq => hpq.agrees hop

mutual

/-- What agrees with a type agrees with every wider one. -/
theorem Ty.Widened.agrees : ∀ {u v : Ty}, u.Widened v →
    ∀ t : Ty, t.agrees u = true → t.agrees v = true
  | _, _, .wildcard _ depth, t, _ => t.agrees_any depth
  | _, _, .prim _ _, _, h => h
  | _, _, .fn hparams hresult, t, h => by
    cases t with
    | prim name depth =>
      -- A primitive type agrees with functions only if it is a wildcard itself.
      rw [Ty.agrees_prim_fn] at h ⊢
      exact h
    | fn params result depth =>
      rw [Ty.agrees_fn_fn, Bool.and_eq_true, Bool.and_eq_true] at h ⊢
      obtain ⟨⟨hdepth, hresults⟩, hagree⟩ := h
      have hresults' := hresult.agrees result hresults
      exact ⟨⟨hdepth, hresults'⟩, Params.agree_of_widens hagree hparams.widens⟩

/-- Wider parameters are wider place by place. -/
theorem Params.Widened.widens : ∀ {ps qs : List Param}, Params.Widened ps qs →
    List.Forall₂ Param.Widens ps qs
  | _, _, .nil => .nil
  | _, _, .cons htype hrest => .cons ⟨rfl, htype.agrees⟩ hrest.widens

end

/-- **Widening**: types that agree still do when wildcards, under any number of array levels, take
the place of parts of one of them, on whichever side it stands. -/
theorem agrees_of_widened {t u v : Ty} (h : t.agrees u = true) (hwidened : u.Widened v) :
    t.agrees v = true ∧ v.agrees t = true := by
  have htv : t.agrees v = true := hwidened.agrees t h
  refine ⟨htv, ?_⟩
  rw [Ty.agrees_comm]
  exact htv

/-- The type `[(f: (x: int): bool, y: [float]): none]`. -/
def visitor : Ty :=
  .fn [⟨"f", .fn [⟨"x", .int, none⟩] .bool 0, none⟩, ⟨"y", .prim "float" 1, none⟩] .noValue 1

/-- The type `[(y: [float], f: (x: int): bool): none]`. -/
def visitorLast : Ty :=
  .fn [⟨"y", .prim "float" 1, none⟩, ⟨"f", .fn [⟨"x", .int, none⟩] .bool 0, none⟩] .noValue 1

/-- The type `[(f: (x: [[[[ANY]]]]): bool, y: ANY): [[ANY]]]`. -/
def anyVisitor : Ty :=
  .fn [⟨"f", .fn [⟨"x", .any 4, none⟩] .bool 0, none⟩, ⟨"y", .any 0, none⟩] (.any 2) 1

/-- Wildcards may stand for the parameter of a parameter, for an array and for the result, under
more array levels than these have or fewer. -/
theorem anyVisitor_agrees :
    visitor.Widened anyVisitor ∧ visitorLast.agrees visitor = true ∧
      visitorLast.agrees anyVisitor = true ∧ anyVisitor.agrees visitorLast = true := by
  have hcallback : Ty.Widened (.fn [⟨"x", .int, none⟩] .bool 0)
      (.fn [⟨"x", .any 4, none⟩] .bool 0) :=
    .fn (.cons (.wildcard .int 4) .nil) (.refl .bool)
  have hwidened : visitor.Widened anyVisitor :=
    .fn (.cons hcallback (.cons (.wildcard _ 0) .nil)) (.wildcard .noValue 2)
  have hagrees : visitorLast.agrees visitor = true := by decide
  exact ⟨hwidened, hagrees, agrees_of_widened hagrees hwidened⟩

end FrontEnd
