import FrontEnd.Proofs.Runs.Wildcard
import FrontEnd.Syntax.Equal

/-!
# Orderings

Arrays have no order, but only the left operand of an ordering is asked for its array levels. The
right one has to agree with it, which keeps arrays away from the right as well unless a wildcard
stands on either side.

- `Expr.IsArrayLiteral.depth_pos`: an array that is written out has an array level.
- `Comparison.AcceptedIn.operands`: the operands of an accepted ordering in any context.
- `Comparison.right_of_confined`: the right one in a context without the wildcard. If it is an array
  there, it is written out.
- `ordering_operands`: so it is for all orderings of a condition, and in the check of a program.
- `emptyArray_ordered`: such an ordering is accepted, although its mirror image is not.
-/

namespace FrontEnd

open Check

/-! ## Array literals -/

theorem Typing.depth_pos_of_array {types : List Ty} {t : Ty} (h : array types = .ok t) :
    0 < t.depth := by
  unfold array at h
  split at h
  · cases h
    exact Nat.one_pos
  · cases h
    rw [Ty.depth_withDepth]
    exact Nat.succ_pos _
  · cases h

theorem Expr.IsArrayLiteral.depth_pos {env : Env} {e : Expr} {t : Ty} (h : e.IsArrayLiteral)
    (ht : e.typeIn env = .ok t) : 0 < t.depth := by
  induction h with
  | array entries =>
    rw [Expr.typeIn] at ht
    obtain ⟨types, -, harray⟩ := exists_ok_of_bind ht
    exact Typing.depth_pos_of_array harray
  | paren inner _ ih =>
    rw [Factor.toExpr, Expr.typeIn, AddExpr.typeIn, Term.typeIn, Factor.typeIn] at ht
    exact ih ht

/-! ## Operands -/

namespace Comparison

variable {c : Context} {comparison : Comparison}

/-- The operands of an accepted ordering, as they are checked. -/
theorem AcceptedIn.operands (h : comparison.AcceptedIn c.env)
    (hordering : Typing.isOrdering comparison.relop = true) :
    ∃ left right, comparison.left.check c = .ok left c ∧
      comparison.right.check c = .ok right c ∧ left.depth = 0 ∧
      (right.depth = 0 ∨ left.isAny = true ∨ right.isAny = true) := by
  obtain ⟨left, right, hleft, hright, hagrees, hdepth⟩ := h
  refine ⟨left, right, (AddExpr.check_keeps _ c).ok_iff.2 hleft,
    (AddExpr.check_keeps _ c).ok_iff.2 hright, hdepth hordering, ?_⟩
  by_cases hany : left.isAny = true ∨ right.isAny = true
  · exact .inr hany
  · rw [not_or, Bool.not_eq_true, Bool.not_eq_true] at hany
    -- Without the wildcard, types that agree have the same array levels.
    have hequal : left.depth = right.depth :=
      ((Ty.agrees_iff_of_isAny hany.1 hany.2).1 hagrees).1
    exact .inl (hequal.symm.trans (hdepth hordering))

/-- Where no wildcard is in scope, only an array literal on the right can be of the wildcard. -/
theorem right_of_confined {left right : Ty} (hc : c.Confined)
    (hleft : comparison.left.check c = .ok left c)
    (hright : comparison.right.check c = .ok right c) (hdepth : left.depth = 0)
    (hwildcard : right.depth = 0 ∨ left.isAny = true ∨ right.isAny = true) :
    right.depth = 0 ∨ right.isAny = true ∧ (Expr.add comparison.right).IsArrayLiteral := by
  have htype : ∀ {sum : AddExpr} {t : Ty}, sum.check c = .ok t c →
      (Expr.add sum).typeIn c.env = .ok t := by
    intro sum t hsum
    rw [Expr.typeIn]
    exact (sum.check_keeps c).ok_iff.1 hsum
  obtain hright' | hany | hany := hwildcard
  · exact .inl hright'
  · -- An array literal on the left would be an array there.
    have hliteral := hc.isArrayLiteral (htype hleft) hany
    exact absurd hdepth (hliteral.depth_pos (htype hleft)).ne'
  · exact .inr ⟨hany, hc.isArrayLiteral (htype hright) hany⟩

end Comparison

/-- **Orderings**: in an accepted ordering the left operand is no array, and the right one is an
array only if one of the two is of the wildcard. In the check of a program this is so only if the
right operand is an array of the wildcard that is written out. -/
theorem ordering_operands {c stop : Context} {condition : Condition} {t : Ty}
    {comparison : Comparison} (hrun : condition.check c = .ok t stop)
    (hcomparison : comparison ∈ condition.comparisons)
    (hordering : Typing.isOrdering comparison.relop = true) :
    ∃ left right, comparison.left.check c = .ok left c ∧
      comparison.right.check c = .ok right c ∧ left.depth = 0 ∧
      (right.depth = 0 ∨ left.isAny = true ∨ right.isAny = true) ∧
      ∀ source file program, parseProgram (tokenize source file) file = .ok program →
        c ∈ program.points →
          right.depth = 0 ∨ right.isAny = true ∧ (Expr.add comparison.right).IsArrayLiteral := by
  obtain ⟨-, -, haccepted⟩ := Condition.check_iff.1 hrun
  obtain ⟨left, right, hleft, hright, hdepth, hwildcard⟩ :=
    (haccepted comparison hcomparison).operands hordering
  refine ⟨left, right, hleft, hright, hdepth, hwildcard, ?_⟩
  intro source file program hparse hpoint
  have hconfined : c.Confined := points_confined hparse c hpoint
  exact Comparison.right_of_confined hconfined hleft hright hdepth hwildcard

/-- The number `1` as an operand. -/
def oneOperand : AddExpr := .single (.single (.int 1))

/-- An empty array in parentheses as an operand. -/
def emptyOperand : AddExpr := .single (.single (.paren (.array [])))

/-- A text that compares a number with an empty array. -/
def emptyOrderedText : String := "let b : bool <- 1 < ([]);"

/-- The condition `1 < 1 and 1 < ([])`. -/
def emptyOrdered : Condition :=
  .chain oneOperand "<" oneOperand "and" (.single oneOperand "<" emptyOperand)

/-- A context with a variable `x` of the wildcard. -/
def wildcardContext : Context := Context.initial.declaring [("x", .any 0)]

/-- The second ordering of the condition has an array for its right operand, which is written out
where a program starts, and could be any array if a variable of the wildcard stood on the left. -/
theorem emptyOrdered_operands :
    (∃ left right, AddExpr.check (.single (.single (.var "x" []))) wildcardContext =
        .ok left wildcardContext ∧
      AddExpr.check (.single (.single (.paren (.array [.add oneOperand])))) wildcardContext =
        .ok right wildcardContext ∧ left.depth = 0 ∧
      (right.depth = 0 ∨ left.isAny = true ∨ right.isAny = true)) ∧
    ∃ program, checkSource emptyOrderedText defaultFile = .ok program ∧
      .initial ∈ program.points ∧
      ∃ left right, oneOperand.check .initial = .ok left .initial ∧
        emptyOperand.check .initial = .ok right .initial ∧ left.depth = 0 ∧
        (right.depth = 0 ∨ right.isAny = true ∧ (Expr.add emptyOperand).IsArrayLiteral) := by
  constructor
  · have hrun : Condition.check (.single (.single (.single (.var "x" []))) ">="
        (.single (.single (.paren (.array [.add oneOperand]))))) wildcardContext =
        .ok .bool wildcardContext := rfl
    obtain ⟨left, right, hleft, hright, hdepth, hwildcard, -⟩ :=
      ordering_operands hrun List.mem_cons_self (by decide)
    exact ⟨left, right, hleft, hright, hdepth, hwildcard⟩
  · have haccepted : (checkSource emptyOrderedText defaultFile).isOk = true := by decide +kernel
    cases hsource : checkSource emptyOrderedText defaultFile with
    | error d =>
      rw [hsource] at haccepted
      cases haccepted
    | ok program =>
      obtain ⟨hparse, -⟩ := exists_end_of_checkSource hsource
      have hpoint : Context.initial ∈ program.points := Script.start_mem_points _ _
      have hrun : emptyOrdered.check .initial = .ok .bool .initial := rfl
      have hmem : ⟨oneOperand, "<", emptyOperand⟩ ∈ emptyOrdered.comparisons :=
        List.mem_of_getElem? (i := 1) rfl
      obtain ⟨left, right, hleft, hright, hdepth, -, hprograms⟩ :=
        ordering_operands hrun hmem (by decide)
      exact ⟨program, rfl, hpoint, left, right, hleft, hright, hdepth,
        hprograms _ _ _ hparse hpoint⟩

/-- An array may be the right operand of an ordering, although it may not be the left one. -/
theorem emptyArray_ordered :
    ((checkSource emptyOrderedText defaultFile).toOption.map fun program =>
        program.same ⟨[.letVar "b" .bool (.cond (.single oneOperand "<" emptyOperand))]⟩) =
      some true ∧
    (Condition.single oneOperand "<" emptyOperand).check .initial = .ok .bool .initial ∧
    (¬ ∀ comparison ∈ (Condition.single oneOperand "<" emptyOperand).comparisons,
      Typing.isOrdering comparison.relop = true →
        ∀ right, comparison.right.check .initial = .ok right .initial → right.depth = 0) ∧
    (Condition.single emptyOperand "<" oneOperand).check .initial =
      .error (.notComparable "<" "[ANY]") .initial := by
  refine ⟨by decide +kernel, rfl, fun h => ?_, rfl⟩
  have hdepth := h ⟨oneOperand, "<", emptyOperand⟩ List.mem_cons_self (by decide) (.any 1) rfl
  cases hdepth

end FrontEnd
