import FrontEnd.Proofs.Agreement.Equivalence
import FrontEnd.Proofs.Scoping.Frame

/-!
# Arithmetic

A chain of operators is checked in pairs, each operand against the rest behind it, on two levels
that parentheses join: factors in terms and terms in sums. What the pairs amount to can be seen
without the grouping: several operands have to be of one arithmetic type.

- `AddExpr.operands`: the operands of a sum in order, those inside parentheses included.
- `Env.Joined`: operands of one type, which is arithmetic if there are several.
- `Env.joined_append`: a pair is joined if both sides are and their types are.
- `AddExpr.typeIn_iff_joined`: the type of a sum is that in which its operands are joined.
- `arithmetic_by_operands`: so neither grouping nor order nor the operators matter.
-/

namespace FrontEnd

open Check

/-! ## Operands -/

mutual

/-- The operands of a sum: its factors, but in the place of a sum in parentheses the operands of
that sum. -/
def AddExpr.operands : AddExpr → List Factor
  | .single term => term.operands
  | .chain term _ next => term.operands ++ next.operands

/-- The operands of a term, from left to right. -/
def Term.operands : Term → List Factor
  | .single factor => factor.operands
  | .chain factor _ next => factor.operands ++ next.operands

/-- The operands of a factor: those inside parentheses, or the factor itself. -/
def Factor.operands : Factor → List Factor
  | .paren inner => inner.operandsInside
  | .var name indices => [.var name indices]
  | .call callee args => [.call callee args]
  | .int value => [.int value]
  | .float value => [.float value]

/-- The operands of an expression in parentheses. One that is no sum is an operand as a whole. -/
def Expr.operandsInside : Expr → List Factor
  | .add sum => sum.operands
  | .cond condition => [.paren (.cond condition)]
  | .array entries => [.paren (.array entries)]
  | .closure params result body => [.paren (.closure params result body)]

end

mutual

/-- A sum has at least one operand. -/
theorem AddExpr.operands_ne_nil : ∀ sum : AddExpr, sum.operands ≠ []
  | .single term => by
    rw [AddExpr.operands]
    exact term.operands_ne_nil
  | .chain term _ next => by
    rw [AddExpr.operands]
    exact List.append_ne_nil_of_left_ne_nil term.operands_ne_nil _

theorem Term.operands_ne_nil : ∀ term : Term, term.operands ≠ []
  | .single factor => by
    rw [Term.operands]
    exact factor.operands_ne_nil
  | .chain factor _ next => by
    rw [Term.operands]
    exact List.append_ne_nil_of_left_ne_nil factor.operands_ne_nil _

theorem Factor.operands_ne_nil : ∀ factor : Factor, factor.operands ≠ []
  | .paren inner => by
    rw [Factor.operands]
    exact inner.operandsInside_ne_nil
  | .var _ _ | .call _ _ | .int _ | .float _ => by
    rw [Factor.operands]
    exact List.cons_ne_nil _ _

theorem Expr.operandsInside_ne_nil : ∀ e : Expr, e.operandsInside ≠ []
  | .add sum => by
    rw [Expr.operandsInside]
    exact sum.operands_ne_nil
  | .cond _ | .array _ | .closure _ _ _ => by
    rw [Expr.operandsInside]
    exact List.cons_ne_nil _ _

end

/-! ## Arithmetic types -/

namespace Ty

/-- The arithmetic types are three, without array levels. -/
theorem isArithmetic_iff {t : Ty} :
    t.isArithmetic = true ↔ t = .int ∨ t = .float ∨ t = .bool := by
  constructor
  · intro h
    unfold isArithmetic at h
    split at h
    · simpa [arithmeticNames, int, float, bool] using h
    · cases h
  · rintro (rfl | rfl | rfl) <;> decide

/-- No arithmetic type is the wildcard. -/
theorem isAny_of_isArithmetic {t : Ty} (h : t.isArithmetic = true) : t.isAny = false := by
  obtain rfl | rfl | rfl := isArithmetic_iff.1 h <;> decide

/-- Only a wildcard agrees with an arithmetic type without being it. -/
theorem eq_of_agrees_arithmetic {t u : Ty} (ht : t.isArithmetic = true) (hu : u.isAny = false)
    (h : t.agrees u = true) : t = u := by
  have htany : t.isAny = false := isAny_of_isArithmetic ht
  obtain ⟨hdepth, hbase⟩ := (agrees_iff_of_isAny htany hu).1 h
  obtain ⟨a, d, rfl⟩ : ∃ a d, t = prim a d := by
    obtain rfl | rfl | rfl := isArithmetic_iff.1 ht <;> exact ⟨_, _, rfl⟩
  cases u with
  | prim b e =>
    rw [isAny] at htany hu
    rw [sameBase, htany, hu, Bool.false_or, Bool.false_or, beq_iff_eq] at hbase
    rw [hbase, show d = e from hdepth]
  | fn params result e => cases hbase

end Ty

namespace Typing

/-- Two operands can be joined if they agree and the first is arithmetic. -/
theorem joinable_eq_ok_iff {head tail : Ty} :
    joinable head tail = .ok () ↔ head.agrees tail = true ∧ head.isArithmetic = true := by
  unfold joinable
  by_cases hagrees : head.agrees tail = true
  · by_cases harithmetic : head.isArithmetic = true
    · simp [hagrees, harithmetic]
    · simp [hagrees, harithmetic]
  · simp [hagrees]

/-- A chain has the type of its first operand, if the rest can be joined to it. -/
theorem chain_eq_ok_iff {first rest : Except Fault Ty} {t : Ty} :
    (do
      let head ← first
      let tail ← rest
      joinable head tail
      return head) = .ok t ↔
      first = .ok t ∧ ∃ tail, rest = .ok tail ∧ joinable t tail = .ok () := by
  constructor
  · intro h
    obtain ⟨head, hfirst, h⟩ := exists_ok_of_bind h
    obtain ⟨tail, hrest, h⟩ := exists_ok_of_bind h
    obtain ⟨_, hjoin, h⟩ := exists_ok_of_bind h
    cases h
    exact ⟨hfirst, tail, hrest, hjoin⟩
  · rintro ⟨rfl, tail, rfl, hjoin⟩
    show (joinable t tail >>= fun _ => Except.ok t) = .ok t
    rw [hjoin]
    rfl

end Typing

/-! ## Joined operands -/

namespace Env

variable {env : Env} {fs gs : List Factor} {t : Ty}

/-- Every operand has a type, and none of these is a wildcard. -/
def Plain (env : Env) (fs : List Factor) : Prop :=
  ∀ f ∈ fs, ∃ t, f.typeIn env = .ok t ∧ t.isAny = false

/-- All operands have the type, which is arithmetic unless there is only one of them. -/
def Joined (env : Env) (fs : List Factor) (t : Ty) : Prop :=
  (∀ f ∈ fs, f.typeIn env = .ok t) ∧ (fs.length = 1 ∨ t.isArithmetic = true)

/-- A single operand is of its own type. -/
theorem joined_singleton {f : Factor} : env.Joined [f] t ↔ f.typeIn env = .ok t := by
  simp [Joined]

/-- Joined operands are not of the wildcard, if none of them is. -/
theorem Joined.isAny (h : env.Joined fs t) (hne : fs ≠ []) (hplain : env.Plain fs) :
    t.isAny = false := by
  obtain ⟨f, hf⟩ := List.exists_mem_of_ne_nil fs hne
  obtain ⟨u, hu, hany⟩ := hplain f hf
  cases hu.symm.trans (h.1 f hf)
  exact hany

/-- Operands are joined in two parts if the types of the parts can be joined. -/
theorem joined_append (hfs : fs ≠ []) (hgs : gs ≠ []) (hplain : env.Plain gs) :
    env.Joined (fs ++ gs) t ↔
      env.Joined fs t ∧ ∃ tail, env.Joined gs tail ∧ Typing.joinable t tail = .ok () := by
  constructor
  · rintro ⟨hall, hlength⟩
    obtain ⟨hleft, hright⟩ := List.forall_mem_append.1 hall
    have harithmetic : t.isArithmetic = true := by
      refine hlength.resolve_left fun hone => ?_
      have hleftlength := List.length_pos_of_ne_nil hfs
      have hrightlength := List.length_pos_of_ne_nil hgs
      rw [List.length_append] at hone
      omega
    exact ⟨⟨hleft, .inr harithmetic⟩, t, ⟨hright, .inr harithmetic⟩,
      Typing.joinable_eq_ok_iff.2 ⟨t.agrees_refl, harithmetic⟩⟩
  · rintro ⟨hleft, tail, hright, hjoin⟩
    obtain ⟨hagrees, harithmetic⟩ := Typing.joinable_eq_ok_iff.1 hjoin
    -- Without wildcards the two parts can only agree by having the same type.
    obtain rfl := Ty.eq_of_agrees_arithmetic harithmetic (hright.isAny hgs hplain) hagrees
    exact ⟨List.forall_mem_append.2 ⟨hleft.1, hright.1⟩, .inr harithmetic⟩

end Env

mutual

/-- A sum has the type in which its operands are joined. -/
theorem AddExpr.typeIn_iff_joined : ∀ {sum : AddExpr} {env : Env} {t : Ty},
    env.Plain sum.operands → (sum.typeIn env = .ok t ↔ env.Joined sum.operands t)
  | .single term, env, t, h => by
    rw [AddExpr.operands] at h ⊢
    rw [AddExpr.typeIn, Term.typeIn_iff_joined h]
  | .chain term _ next, env, t, h => by
    rw [AddExpr.operands] at h ⊢
    obtain ⟨hterm, hnext⟩ := List.forall_mem_append.1 h
    rw [AddExpr.typeIn, Typing.chain_eq_ok_iff, Term.typeIn_iff_joined hterm,
      Env.joined_append term.operands_ne_nil next.operands_ne_nil hnext]
    simp only [AddExpr.typeIn_iff_joined hnext]

/-- A term is of the type of its joined operands. -/
theorem Term.typeIn_iff_joined : ∀ {term : Term} {env : Env} {t : Ty},
    env.Plain term.operands → (term.typeIn env = .ok t ↔ env.Joined term.operands t)
  | .single factor, env, t, h => by
    rw [Term.operands] at h ⊢
    rw [Term.typeIn, Factor.typeIn_iff_joined h]
  | .chain factor _ next, env, t, h => by
    rw [Term.operands] at h ⊢
    obtain ⟨hfactor, hnext⟩ := List.forall_mem_append.1 h
    rw [Term.typeIn, Typing.chain_eq_ok_iff, Factor.typeIn_iff_joined hfactor,
      Env.joined_append factor.operands_ne_nil next.operands_ne_nil hnext]
    simp only [Term.typeIn_iff_joined hnext]

/-- Parentheses do not change what an expression joins. -/
theorem Factor.typeIn_iff_joined : ∀ {factor : Factor} {env : Env} {t : Ty},
    env.Plain factor.operands → (factor.typeIn env = .ok t ↔ env.Joined factor.operands t)
  | .paren inner, env, t, h => by
    rw [Factor.operands] at h ⊢
    rw [Factor.typeIn, Expr.typeIn_iff_joined h]
  | .var _ _, env, t, _ | .call _ _, env, t, _ | .int _, env, t, _ | .float _, env, t, _ => by
    rw [Factor.operands, Env.joined_singleton]

/-- An expression that is a sum is of the type of its joined operands. -/
theorem Expr.typeIn_iff_joined : ∀ {e : Expr} {env : Env} {t : Ty},
    env.Plain e.operandsInside → (e.typeIn env = .ok t ↔ env.Joined e.operandsInside t)
  | .add sum, env, t, h => by
    rw [Expr.operandsInside] at h ⊢
    rw [Expr.typeIn, AddExpr.typeIn_iff_joined h]
  | .cond _, env, t, _ | .array _, env, t, _ | .closure _ _ _, env, t, _ => by
    rw [Expr.operandsInside, Env.joined_singleton, Factor.typeIn]

end

/-! ## Checks -/

/-- Operands are joined exactly if there is a single one, or if all are of one arithmetic type. -/
theorem Env.joined_iff {env : Env} {fs : List Factor} {t : Ty} :
    env.Joined fs t ↔ (∃ f, fs = [f] ∧ f.typeIn env = .ok t) ∨
      (t = .int ∨ t = .float ∨ t = .bool) ∧ ∀ f ∈ fs, f.typeIn env = .ok t := by
  rw [Joined, Ty.isArithmetic_iff, List.length_eq_one_iff]
  constructor
  · rintro ⟨hall, ⟨f, rfl⟩ | harithmetic⟩
    · exact .inl ⟨f, rfl, hall f List.mem_cons_self⟩
    · exact .inr ⟨harithmetic, hall⟩
  · rintro (⟨f, rfl, hf⟩ | ⟨harithmetic, hall⟩)
    · exact ⟨List.forall_mem_singleton.2 hf, .inl ⟨f, rfl⟩⟩
    · exact ⟨hall, .inr harithmetic⟩

/-- Joining does not depend on the order of the operands. -/
theorem Env.joined_perm {env : Env} {fs gs : List Factor} {t : Ty} (h : fs.Perm gs) :
    env.Joined fs t ↔ env.Joined gs t := by
  simp only [Joined, h.mem_iff, h.length_eq]

/-- Operands that are checked without the wildcard are plain in the surroundings. -/
theorem Context.plain {c : Context} {fs : List Factor}
    (h : ∀ f ∈ fs, ∃ t, f.check c = .ok t c ∧ t.isAny = false) : c.env.Plain fs := by
  intro f hf
  obtain ⟨t, ht, hany⟩ := h f hf
  exact ⟨t, (f.check_keeps c).ok_iff.1 ht, hany⟩

/-- The check of a sum answers the type of its joined operands and nothing else. -/
theorem AddExpr.check_iff_joined {c stop : Context} {sum : AddExpr} {t : Ty}
    (h : c.env.Plain sum.operands) :
    sum.check c = .ok t stop ↔ stop = c ∧ c.env.Joined sum.operands t := by
  rw [(sum.check_keeps c).eq_ok_iff, AddExpr.typeIn_iff_joined h]

/-- **Arithmetic**: where every operand has a type other than the wildcard, a sum is accepted
exactly if it has one operand, whose type it has, or all of them have one and the same type that is
arithmetic. So any sum of the same operands in another order, grouped otherwise or under other
operators is accepted or rejected alike, with the same type. -/
theorem arithmetic_by_operands {c : Context} {sum : AddExpr}
    (h : ∀ f ∈ sum.operands, ∃ t, f.check c = .ok t c ∧ t.isAny = false) :
    (∀ t stop, sum.check c = .ok t stop ↔ stop = c ∧
      ((∃ f, sum.operands = [f] ∧ f.check c = .ok t c) ∨
        (t = .int ∨ t = .float ∨ t = .bool) ∧ ∀ f ∈ sum.operands, f.check c = .ok t c)) ∧
    ∀ other : AddExpr, other.operands.Perm sum.operands →
      ∀ t stop, other.check c = .ok t stop ↔ sum.check c = .ok t stop := by
  have hplain := Context.plain h
  refine ⟨fun t stop => ?_, fun other hperm t stop => ?_⟩
  · rw [AddExpr.check_iff_joined hplain, Env.joined_iff]
    simp only [(Factor.check_keeps _ c).ok_iff]
  · have hother : c.env.Plain other.operands := fun f hf => hplain f (hperm.mem_iff.1 hf)
    rw [AddExpr.check_iff_joined hplain, AddExpr.check_iff_joined hother, Env.joined_perm hperm]

/-- A context with a variable `x: int`. -/
def counterContext : Context := Context.initial.declaring [("x", .int)]

/-- The sum `readInt() * (1 + x) - 2`. -/
def groupedSum : AddExpr :=
  .chain (.chain (.call "readInt" []) "*" (.single (.paren (.add
    (.chain (.single (.int 1)) "+" (.single (.single (.var "x" [])))))))) "-"
    (.single (.single (.int 2)))

/-- The sum `2 / x + (1 * readInt())`. -/
def regroupedSum : AddExpr :=
  .chain (.chain (.int 2) "/" (.single (.var "x" []))) "+"
    (.single (.single (.paren (.add (.single (.chain (.int 1) "*"
      (.single (.call "readInt" []))))))))

/-- The same four operands make an integer in both groupings. -/
theorem regroupedSum_checked :
    regroupedSum.operands = groupedSum.operands.reverse ∧
      groupedSum.check counterContext = .ok .int counterContext ∧
      regroupedSum.check counterContext = .ok .int counterContext := by
  have hint : ∀ f ∈ groupedSum.operands, f.check counterContext = .ok .int counterContext :=
    List.forall_mem_cons.2 ⟨rfl, List.forall_mem_cons.2 ⟨rfl, List.forall_mem_cons.2 ⟨rfl,
      List.forall_mem_singleton.2 rfl⟩⟩⟩
  have hreverse : regroupedSum.operands = groupedSum.operands.reverse := rfl
  have hperm : regroupedSum.operands.Perm groupedSum.operands :=
    hreverse ▸ List.reverse_perm groupedSum.operands
  obtain ⟨hcheck, hother⟩ := arithmetic_by_operands fun f hf => ⟨.int, hint f hf, rfl⟩
  have hgrouped := (hcheck .int counterContext).2 ⟨rfl, .inr ⟨.inl rfl, hint⟩⟩
  exact ⟨hreverse, hgrouped, (hother regroupedSum hperm _ _).2 hgrouped⟩

end FrontEnd
