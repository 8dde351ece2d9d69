import FrontEnd.Proofs.Agreement.Equivalence
import FrontEnd.Proofs.Parameters.Order

/-!
# Array literals

The types of the entries of an array are gathered up to agreement, and since agreement is not
transitive it is not plain what remains of them. But an array is accepted only if one type remains,
and this can only be that of the first entry.

- `Typing.array_eq_ok_iff`, `Typing.array_eq_error`: the first entry decides about the others.
- `Context.Answers`: the entries have these types in a context.
- `Typing.array_perm`: concrete types make the same array in any order, up to agreement.
- `array_literals`: what the check of an array literal answers for its entries.
-/

namespace FrontEnd

open Check

namespace Ty

/-- Types that agree do so under further array levels. -/
theorem agrees_withDepth {t u : Ty} (h : t.agrees u = true) (more : Nat) :
    (t.withDepth (t.depth + more)).agrees (u.withDepth (u.depth + more)) = true := by
  rw [agrees_eq] at h ⊢
  rw [isAny_withDepth, isAny_withDepth, depth_withDepth, depth_withDepth, sameBase_withDepth]
  -- A wildcard on either side still stands there, and equal depths grow by the same number.
  simpa using h

end Ty

/-! ## The rule -/

namespace Typing

theorem array_eq_ok_iff {first t : Ty} {rest : List Ty} :
    array (first :: rest) = .ok t ↔
      (∀ u ∈ rest, u.agrees first = true) ∧ t = first.withDepth (first.depth + 1) := by
  have hrest : rest.find? (!first.agrees ·) = none ↔ ∀ u ∈ rest, u.agrees first = true := by
    simp [List.find?_eq_none, Ty.agrees_comm first]
  rw [array_cons, ← hrest]
  cases rest.find? (!first.agrees ·) with
  | none => simp [eq_comm]
  | some other => simp

/-- The first entry that does not agree with the first of all is at fault. -/
theorem array_eq_error {first other : Ty} {alike behind : List Ty}
    (halike : ∀ u ∈ alike, u.agrees first = true) (hother : other.agrees first = false) :
    array (first :: (alike ++ other :: behind)) =
      .error (.mixedEntries first.text other.text) := by
  have hfound : (alike ++ other :: behind).find? (!first.agrees ·) = some other := by
    rw [List.find?_eq_some_iff_append]
    refine ⟨?_, alike, behind, rfl, fun u hu => ?_⟩
    · rw [Ty.agrees_comm, hother, Bool.not_false]
    · rw [Ty.agrees_comm, halike u hu, Bool.not_true, Bool.not_false]
  rw [array_cons, hfound]

/-- Either all types agree with the first or one of them is the first that does not. -/
theorem agree_or_differ (first : Ty) (rest : List Ty) :
    (∀ u ∈ rest, u.agrees first = true) ∨
      ∃ alike other behind, rest = alike ++ other :: behind ∧
        (∀ u ∈ alike, u.agrees first = true) ∧ other.agrees first = false := by
  cases hfound : rest.find? (fun u => !u.agrees first) with
  | none =>
    left
    simpa using hfound
  | some other =>
    right
    obtain ⟨hother, alike, behind, hrest, halike⟩ := List.find?_eq_some_iff_append.1 hfound
    refine ⟨alike, other, behind, hrest, fun u hu => ?_, ?_⟩
    · simpa using halike u hu
    · simpa using hother

/-- Concrete types agree with the first of them if and only if any two of them agree. -/
theorem agree_with_first_iff {first : Ty} {rest : List Ty}
    (hconcrete : ∀ t ∈ first :: rest, t.isConcrete = true) :
    (∀ u ∈ rest, u.agrees first = true) ↔
      ∀ t ∈ first :: rest, ∀ u ∈ first :: rest, t.agrees u = true := by
  constructor
  · intro h
    have hfirst : ∀ t ∈ first :: rest, t.agrees first = true :=
      List.forall_mem_cons.2 ⟨first.agrees_refl, h⟩
    intro t ht u hu
    have hu' : first.agrees u = true := (first.agrees_comm u).trans (hfirst u hu)
    exact Ty.agrees_trans (hconcrete first List.mem_cons_self) (hconcrete u hu) (hfirst t ht) hu'
  · intro h u hu
    exact h u (List.mem_cons_of_mem first hu) first List.mem_cons_self

theorem array_eq_ok_iff_of_concrete {first t : Ty} {rest : List Ty}
    (hconcrete : ∀ t ∈ first :: rest, t.isConcrete = true) :
    array (first :: rest) = .ok t ↔
      (∀ t ∈ first :: rest, ∀ u ∈ first :: rest, t.agrees u = true) ∧
        t = first.withDepth (first.depth + 1) := by
  rw [array_eq_ok_iff, agree_with_first_iff hconcrete]

/-- The order of concrete types makes no difference to the array of them, up to agreement. -/
theorem array_perm {types types' : List Ty} (h : types.Perm types')
    (hconcrete : ∀ t ∈ types, t.isConcrete = true) :
    SameVerdict (fun t u => t.agrees u = true) (array types) (array types') := by
  cases types with
  | nil =>
    rw [List.nil_perm.1 h]
    exact .ok (Ty.agrees_refl _)
  | cons first rest =>
    cases types' with
    | nil => exact absurd h.symm.nil_eq (List.cons_ne_nil first rest).symm
    | cons first' rest' =>
      have hconcrete' : ∀ t ∈ first' :: rest', t.isConcrete = true :=
        fun t ht => hconcrete t (h.mem_iff.2 ht)
      have hpairs : (∀ t ∈ first :: rest, ∀ u ∈ first :: rest, t.agrees u = true) ↔
          ∀ t ∈ first' :: rest', ∀ u ∈ first' :: rest', t.agrees u = true := by
        -- That any two types agree does not mention their order.
        simp only [h.mem_iff]
      refine .of_ok (fun t ht => ?_) fun t' ht' => ?_
      · obtain ⟨hagree, rfl⟩ := (array_eq_ok_iff_of_concrete hconcrete).1 ht
        have hfirst : first.agrees first' = true :=
          hagree first List.mem_cons_self first' (h.mem_iff.2 List.mem_cons_self)
        exact ⟨_, (array_eq_ok_iff_of_concrete hconcrete').2 ⟨hpairs.1 hagree, rfl⟩,
          Ty.agrees_withDepth hfirst 1⟩
      · obtain ⟨hagree, -⟩ := (array_eq_ok_iff_of_concrete hconcrete').1 ht'
        exact ⟨_, (array_eq_ok_iff_of_concrete hconcrete).2 ⟨hpairs.2 hagree, rfl⟩⟩

end Typing

/-! ## Entries -/

/-- In this context the check of each expression answers the type at its place. -/
def Context.Answers (c : Context) (es : List Expr) (types : List Ty) : Prop :=
  List.Forall₂ (fun e t => e.check c = .ok t c) es types

theorem Context.Answers.check_eq {c : Context} {es : List Expr} {types : List Ty}
    (h : c.Answers es types) : Exprs.check es c = .ok types c := by
  induction h with
  | nil =>
    rw [Exprs.check]
    rfl
  | cons he _ ih =>
    rw [Exprs.check, bind_ok he, bind_ok ih]
    rfl

/-- If all entries have a type, the rule for arrays decides. -/
theorem Context.Answers.array_check {c : Context} {es : List Expr} {types : List Ty}
    (h : c.Answers es types) :
    (Expr.array es).check c = judge (Typing.array types) c := by
  rw [Expr.check, bind_ok h.check_eq]

/-- The check of several expressions ends at the first that has a fault. -/
theorem Exprs.check_eq_error {c stop : Context} {before behind : List Expr} {e : Expr}
    {fault : Fault} (hbefore : ∀ b ∈ before, ∃ t, b.check c = .ok t c)
    (he : e.check c = .error fault stop) :
    Exprs.check (before ++ e :: behind) c = .error fault stop := by
  induction before with
  | nil => rw [List.nil_append, Exprs.check, bind_error he]
  | cons b before ih =>
    obtain ⟨⟨t, hb⟩, hbefore⟩ := List.forall_mem_cons.1 hbefore
    rw [List.cons_append, Exprs.check, bind_ok hb, bind_error (ih hbefore)]

theorem Context.Answers.perm {c : Context} {es es' : List Expr} {types : List Ty}
    (h : c.Answers es types) (hperm : es.Perm es') :
    ∃ types', types.Perm types' ∧ c.Answers es' types' := by
  obtain ⟨types', hanswers, htypes⟩ := List.perm_comp_forall₂ hperm.symm h
  exact ⟨types', htypes.symm, hanswers⟩

theorem Check.outcome_judge {α : Type} (r : Except Fault α) (c : Context) :
    (judge r).outcome c = r :=
  judge_keeps.outcome_eq

theorem Context.Answers.array_outcome {c : Context} {es : List Expr} {types : List Ty}
    (h : c.Answers es types) : (Expr.array es).check.outcome c = Typing.array types := by
  rw [← outcome_judge (Typing.array types) c, outcome, outcome, h.array_check]

/-- **Array literals**: if all entries have a type, the array is accepted exactly if they agree with
the first, and is an array of its type; otherwise the fault names the first type and the first that
does not agree with it. If an entry has a fault, the first such fault is that of the array, even if
entries in front of it disagree. And in any order entries of concrete types are accepted or rejected
alike, as arrays of types that agree. -/
theorem array_literals (c : Context) :
    (∀ entries first rest, c.Answers entries (first :: rest) →
      ((∃ t stop, (Expr.array entries).check c = .ok t stop) ↔
        ∀ t ∈ rest, t.agrees first = true) ∧
      ((∀ t ∈ rest, t.agrees first = true) →
        (Expr.array entries).check c = .ok (first.withDepth (first.depth + 1)) c) ∧
      ((¬ ∀ t ∈ rest, t.agrees first = true) →
        ∃ alike other behind, rest = alike ++ other :: behind ∧
          (∀ t ∈ alike, t.agrees first = true) ∧ other.agrees first = false ∧
          (Expr.array entries).check c = .error (.mixedEntries first.text other.text) c)) ∧
    (∀ before e behind fault stop, (∀ b ∈ before, ∃ t, b.check c = .ok t c) →
      e.check c = .error fault stop →
        (Expr.array (before ++ e :: behind)).check c = .error fault stop) ∧
    ∀ entries entries' types, c.Answers entries types → (∀ t ∈ types, t.isConcrete = true) →
      entries.Perm entries' →
        SameVerdict (fun t u => t.agrees u = true) ((Expr.array entries).check.outcome c)
          ((Expr.array entries').check.outcome c) := by
  refine ⟨fun entries first rest h => ?_, fun before e behind fault stop hbefore he => ?_,
    fun entries entries' types h hconcrete hperm => ?_⟩
  · have haccepted : (∀ t ∈ rest, t.agrees first = true) →
        (Expr.array entries).check c = .ok (first.withDepth (first.depth + 1)) c := by
      intro hagree
      rw [h.array_check, Typing.array_eq_ok_iff.2 ⟨hagree, rfl⟩]
      rfl
    refine ⟨⟨?_, fun hagree => ⟨_, c, haccepted hagree⟩⟩, haccepted, fun hdiffer => ?_⟩
    · rintro ⟨t, stop, hrun⟩
      have hrule : (judge (Typing.array (first :: rest))) c = .ok t stop := by
        rw [← h.array_check, hrun]
      exact (Typing.array_eq_ok_iff.1 (judge_keeps.eq_ok_iff.1 hrule).2).1
    · obtain hagree | ⟨alike, other, behind, rfl, halike, hother⟩ :=
        Typing.agree_or_differ first rest
      · exact absurd hagree hdiffer
      · refine ⟨alike, other, behind, rfl, halike, hother, ?_⟩
        rw [h.array_check, Typing.array_eq_error halike hother]
        rfl
  · rw [Expr.check, bind_error (Exprs.check_eq_error hbefore he)]
  · -- Permuted entries answer permuted types, and for these only the rule about types matters.
    obtain ⟨types', htypes, h'⟩ := h.perm hperm
    rw [h.array_outcome, h'.array_outcome]
    exact Typing.array_perm htypes hconcrete

/-- The literal `1`. -/
def oneEntry : Expr := (Factor.int 1).toExpr

/-- An empty array in front makes `[[], [1]]` an array of arrays of the wildcard. An array behind
`1` is at fault, unless there is a name behind it that is not declared. And `[[1], [1, 1]]` is of
one type in either order. -/
theorem arrayEntries_checked :
    (Expr.array [.array [], .array [oneEntry]]).check .initial = .ok (.any 2) .initial ∧
      (Expr.array [oneEntry, .array [oneEntry]]).check .initial =
        .error (.mixedEntries "int" "[int]") .initial ∧
      (Expr.array [oneEntry, .array [oneEntry], (Factor.var "y" []).toExpr]).check .initial =
        .error (.notDeclared "y") .initial ∧
      SameVerdict (fun t u => t.agrees u = true)
        ((Expr.array [.array [oneEntry], .array [oneEntry, oneEntry]]).check.outcome .initial)
        ((Expr.array [.array [oneEntry, oneEntry], .array [oneEntry]]).check.outcome .initial) := by
  obtain ⟨hall, hfirst, horder⟩ := array_literals .initial
  refine ⟨?_, ?_, ?_, ?_⟩
  · have hanswers : Context.initial.Answers [.array [], .array [oneEntry]]
        [.any 1, .prim "int" 1] := .cons rfl (.cons rfl .nil)
    exact (hall _ _ _ hanswers).2.1 (by decide)
  · have hanswers : Context.initial.Answers [oneEntry, .array [oneEntry]]
        [.int, .prim "int" 1] := .cons rfl (.cons rfl .nil)
    obtain ⟨alike, other, behind, hrest, -, -, hrun⟩ := (hall _ _ _ hanswers).2.2 (by decide)
    have hmem : other ∈ [Ty.prim "int" 1] := hrest ▸ List.mem_append_cons_self
    rw [List.mem_singleton.1 hmem] at hrun
    exact hrun
  · refine hfirst [oneEntry, .array [oneEntry]] _ [] _ _ ?_ rfl
    exact List.forall_mem_cons.2 ⟨⟨_, rfl⟩, List.forall_mem_singleton.2 ⟨_, rfl⟩⟩
  · have hanswers : Context.initial.Answers [.array [oneEntry], .array [oneEntry, oneEntry]]
        [.prim "int" 1, .prim "int" 1] := .cons rfl (.cons rfl .nil)
    exact horder _ _ _ hanswers (by decide) (.swap ..)

end FrontEnd
