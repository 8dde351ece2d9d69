import FrontEnd.Proofs.Agreement.Equivalence
import FrontEnd.Proofs.Runs.Written

/-!
# The names in a type

A type holds names of primitive types and of parameters, at any depth. Whoever writes the type
writes all of them, so what is known of the names in a text is known of those in its types.

- `Ty.namesAll`: what holds of all names in a type.
- `Ty.isConcrete_eq_namesAll`: a type is without wildcards if none of its names is that of the
  wildcard.
- `Ty.namesAll_of_standsIn`: the names in a type that stands in a row are names in the row.
-/

namespace FrontEnd

mutual

/-- Whether the names of primitive types and of parameters in a type, at any depth, are such as they
should be. -/
def Ty.namesAll (primitive parameter : String → Bool) : Ty → Bool
  | .prim name _ => primitive name
  | .fn params result _ =>
    Params.namesAll primitive parameter params && result.namesAll primitive parameter

/-- Whether all names in the types of parameters, and the names of the parameters, are as asked
for. -/
def Params.namesAll (primitive parameter : String → Bool) : List Param → Bool
  | [] => true
  | ⟨name, type, _⟩ :: params =>
    parameter name && type.namesAll primitive parameter &&
      Params.namesAll primitive parameter params

end

section

variable {primitive parameter : String → Bool}

/-- The names in parameters are as asked for if those of each parameter are. -/
theorem Params.namesAll_iff {params : List Param} :
    Params.namesAll primitive parameter params = true ↔
      ∀ p ∈ params, parameter p.name = true ∧ p.type.namesAll primitive parameter = true := by
  induction params with
  | nil => exact ⟨fun _ => List.forall_mem_nil _, fun _ => rfl⟩
  | cons p params ih =>
    obtain ⟨name, type, default?⟩ := p
    rw [namesAll, Bool.and_eq_true, Bool.and_eq_true, ih, List.forall_mem_cons]

/-- The names in a function type are as asked for if those in its parts are. -/
theorem Ty.namesAll_fn {params : List Param} {result : Ty} {depth : Nat} :
    (fn params result depth).namesAll primitive parameter = true ↔
      (∀ p ∈ params, parameter p.name = true ∧ p.type.namesAll primitive parameter = true) ∧
        result.namesAll primitive parameter = true := by
  rw [namesAll, Bool.and_eq_true, Params.namesAll_iff]

/-- A type that stands in a row has only names that stand there. -/
theorem Ty.namesAll_of_standsIn {row : List Terminal}
    (hprimitive : ∀ name, Terminal.word .primitive name ∈ row → primitive name = true)
    (hparameter : ∀ name, Terminal.word .identifier name ∈ row → parameter name = true) (t : Ty)
    (h : StandsIn t.yield row) : t.namesAll primitive parameter = true := by
  induction t using Ty.induction with
  | prim name depth =>
    rw [Ty.yield, levels] at h
    exact hprimitive name (h.left.right.subset (List.mem_singleton_self _))
  | fn params result depth hparams hresult =>
    rw [Ty.yield, levels] at h
    have hbase := h.left.right
    have hwritten := Params.standsIn_of_mem hbase.left.tail
    rw [namesAll_fn]
    refine ⟨fun p hp => ?_, hresult hbase.right.tail.tail⟩
    have hparam := Param.standsIn (hwritten p hp)
    exact ⟨hparameter p.name (hparam.subset List.mem_cons_self), hparams p hp hparam.tail.tail⟩

end

/-- A type without wildcards is one without their name. -/
theorem Ty.isConcrete_eq_namesAll (t : Ty) :
    t.isConcrete = t.namesAll (· != anyName) fun _ => true := by
  rw [Bool.eq_iff_iff]
  induction t using Ty.induction with
  | prim name depth => exact Iff.rfl
  | fn params result depth hparams hresult =>
    have hall : (∀ p ∈ params, p.type.isConcrete = true) ↔
        ∀ p ∈ params, true = true ∧ p.type.namesAll (· != anyName) (fun _ => true) = true :=
      forall₂_congr fun p hp => (hparams p hp).trans (and_iff_right rfl).symm
    rw [isConcrete_fn, namesAll_fn, hresult, hall]

end FrontEnd
