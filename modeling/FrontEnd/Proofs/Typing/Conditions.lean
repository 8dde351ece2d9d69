import FrontEnd.Proofs.Scoping.Frame

/-!
# Conditions

A condition is a chain of comparisons. It is checked from the first to the last, and it is accepted
if each of them is by itself.

- `Condition.comparisons`: the comparisons of a condition in order.
- `Comparison.AcceptedIn`: what the operands of an accepted comparison fulfil.
- `Condition.typeIn_iff`, `Condition.check_iff`: a condition is accepted exactly if all its
  comparisons are, and then it is a truth value.
-/

namespace FrontEnd

/-- Two operands and the operator between them. -/
structure Comparison where
  left : AddExpr
  relop : String
  right : AddExpr

/-- The comparisons that a condition chains. -/
def Condition.comparisons : Condition → List Comparison
  | .single left relop right => [⟨left, relop, right⟩]
  | .chain left relop right _ next => ⟨left, relop, right⟩ :: next.comparisons

/-! ## Accepted comparisons -/

theorem Typing.comparable_eq_ok_iff {left right : Ty} {relop : String} :
    comparable left relop right = .ok () ↔
      left.agrees right = true ∧ (isOrdering relop = true → left.depth = 0) := by
  unfold comparable
  by_cases hagrees : left.agrees right = true
  · by_cases hordering : isOrdering relop = true
    · simp [hagrees, hordering]
    · simp [hagrees, hordering]
  · simp [hagrees]

/-- The operands have types that agree, and the left one of an ordering is no array. -/
def Comparison.AcceptedIn (env : Env) (comparison : Comparison) : Prop :=
  ∃ left right, comparison.left.typeIn env = .ok left ∧ comparison.right.typeIn env = .ok right ∧
    left.agrees right = true ∧ (Typing.isOrdering comparison.relop = true → left.depth = 0)

/-- The first comparison of a condition, and what is checked behind it. -/
theorem Comparison.bind_eq_ok_iff (comparison : Comparison) (env : Env) (rest : Except Fault Ty)
    (t : Ty) :
    (do
      let leftType ← comparison.left.typeIn env
      let rightType ← comparison.right.typeIn env
      Typing.comparable leftType comparison.relop rightType
      rest) = .ok t ↔ comparison.AcceptedIn env ∧ rest = .ok t := by
  constructor
  · intro h
    obtain ⟨left, hleft, h⟩ := exists_ok_of_bind h
    obtain ⟨right, hright, h⟩ := exists_ok_of_bind h
    obtain ⟨_, hcomparable, hrest⟩ := exists_ok_of_bind h
    obtain ⟨hagrees, hdepth⟩ := Typing.comparable_eq_ok_iff.1 hcomparable
    exact ⟨⟨left, right, hleft, hright, hagrees, hdepth⟩, hrest⟩
  · rintro ⟨⟨left, right, hleft, hright, hagrees, hdepth⟩, hrest⟩
    have hcomparable := Typing.comparable_eq_ok_iff.2 ⟨hagrees, hdepth⟩
    rw [hleft, hright]
    show Typing.comparable left comparison.relop right >>= (fun _ => rest) = .ok t
    rw [hcomparable]
    exact hrest

theorem Condition.typeIn_iff {env : Env} : ∀ {condition : Condition} {t : Ty},
    condition.typeIn env = .ok t ↔
      t = .bool ∧ ∀ comparison ∈ condition.comparisons, comparison.AcceptedIn env
  | .single left relop right, t => by
    rw [Condition.typeIn, Condition.comparisons, List.forall_mem_singleton]
    refine (Comparison.bind_eq_ok_iff ⟨left, relop, right⟩ env (.ok .bool) t).trans ?_
    rw [and_comm, Except.ok.injEq, eq_comm]
  | .chain left relop right boolop next, t => by
    rw [Condition.typeIn, Condition.comparisons, List.forall_mem_cons]
    refine (Comparison.bind_eq_ok_iff ⟨left, relop, right⟩ env (next.typeIn env) t).trans ?_
    rw [Condition.typeIn_iff, and_left_comm]

theorem Condition.check_iff {c stop : Context} {condition : Condition} {t : Ty} :
    condition.check c = .ok t stop ↔ stop = c ∧ t = .bool ∧
      ∀ comparison ∈ condition.comparisons, comparison.AcceptedIn c.env := by
  rw [(condition.check_keeps c).eq_ok_iff, Condition.typeIn_iff]

end FrontEnd
