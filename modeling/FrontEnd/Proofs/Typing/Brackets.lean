import FrontEnd.Proofs.Runs.Written
import FrontEnd.Proofs.Scoping.Defaults
import FrontEnd.Proofs.Typing.Arithmetic
import FrontEnd.Proofs.Typing.Conditions

/-!
# Array levels cost brackets

Every array level of a type has been written as a bracket, once in an annotation or once in an array
literal. A type may be used often, but it is not written again then, so the brackets of what is in
scope and those of an expression together bound the brackets of its type.

- `brackets`: the opening brackets in a row; those of a type bound its depth and all depths in it.
- `Env.Within n env`: no type in these surroundings has more than `n` brackets.
- `Expr.brackets_le`: the type of an expression has at most the brackets of its surroundings and of
  the expression itself.
-/

namespace FrontEnd

/-! ## Brackets in rows -/

/-- The number of opening brackets in a row. -/
def brackets (row : List Terminal) : Nat := row.countP (·.kind == .openBracket)

@[simp] theorem brackets_nil : brackets [] = 0 := rfl

@[simp] theorem brackets_cons (a : Terminal) (row : List Terminal) :
    brackets (a :: row) = brackets row + if a.kind = .openBracket then 1 else 0 := by
  simp only [brackets, List.countP_cons, beq_iff_eq]

@[simp] theorem brackets_append (as bs : List Terminal) :
    brackets (as ++ bs) = brackets as + brackets bs :=
  List.countP_append

/-- Each array level is one bracket. -/
@[simp] theorem brackets_levels (depth : Nat) (row : List Terminal) :
    brackets (levels depth row) = depth + brackets row := by
  have hopen : brackets (List.replicate depth (.mark .openBracket)) = depth :=
    List.countP_replicate
  have hclose : brackets (List.replicate depth (.mark .closeBracket)) = 0 :=
    List.countP_replicate
  rw [levels, brackets_append, brackets_append, hopen, hclose, Nat.add_zero]

/-- A part of a row has no more brackets than the row. -/
theorem StandsIn.brackets_le {part row : List Terminal} (h : StandsIn part row) :
    brackets part ≤ brackets row :=
  h.sublist.countP_le

/-- The number of opening brackets among tokens. -/
def openBrackets (tokens : List Token) : Nat := tokens.countP (·.kind == .openBracket)

/-- The brackets of a row are those of the tokens that meet it. -/
theorem Reads.brackets_eq {row : List Terminal} {ts : List Token} (h : Reads row ts) :
    brackets row = openBrackets ts := by
  have hcount := congrArg (List.countP (· == .openBracket)) h.kinds
  rw [List.countP_map, List.countP_map] at hcount
  exact hcount.symm

/-- The brackets of expressions add up. -/
theorem Exprs.brackets_cons (e : Expr) (es : List Expr) :
    brackets (Exprs.yield (e :: es)) = brackets e.yield + brackets (Exprs.yield es) := by
  cases es with
  | nil => simp [Exprs.yield]
  | cons f es => simp [Exprs.yield, Terminal.kind]

/-- An entry has no more brackets than all entries together. -/
theorem Exprs.brackets_le_of_mem {e : Expr} {es : List Expr} (h : e ∈ es) :
    brackets e.yield ≤ brackets (Exprs.yield es) := by
  induction h with
  | head es =>
    rw [Exprs.brackets_cons]
    exact Nat.le_add_right _ _
  | tail f _ ih =>
    rw [Exprs.brackets_cons]
    exact Nat.le_add_left_of_le ih

/-- The brackets of parameters add up. -/
theorem Params.brackets_cons (p : Param) (params : List Param) :
    brackets (Params.yield (p :: params)) = brackets p.yield + brackets (Params.yield params) := by
  cases params with
  | nil => simp [Params.yield]
  | cons q params => simp [Params.yield, Terminal.kind]

theorem Args.brackets_cons (arg : Arg) (args : List Arg) :
    brackets (Args.yield (arg :: args)) = brackets arg.yield + brackets (Args.yield args) := by
  cases args with
  | nil => simp [Args.yield]
  | cons b args => simp [Args.yield, Terminal.kind]

/-! ## Brackets of types -/

/-- A type with other array levels has so many more brackets, or fewer. -/
theorem Ty.brackets_withDepth (t : Ty) (depth : Nat) :
    brackets (t.withDepth depth).yield + t.depth = brackets t.yield + depth := by
  cases t with
  | prim name d =>
    simp only [withDepth, Ty.yield, Ty.depth, brackets_levels]
    omega
  | fn params result d =>
    simp only [withDepth, Ty.yield, Ty.depth, brackets_levels]
    omega

/-- A type has at least as many brackets as array levels. -/
theorem Ty.depth_le_brackets (t : Ty) : t.depth ≤ brackets t.yield := by
  have h := t.brackets_withDepth 0
  omega

/-- All array depths in a type are at most `n`: its own, and those of every type that is written in
it, as the type of a parameter, as the result, or in a default. -/
def Ty.DepthsWithin (n : Nat) (t : Ty) : Prop := ∀ u : Ty, StandsIn u.yield t.yield → u.depth ≤ n

/-- A type with few brackets bounds the depths in it: what is written in it has no more. -/
theorem Ty.depthsWithin_of_brackets {n : Nat} {t : Ty} (h : brackets t.yield ≤ n) :
    t.DepthsWithin n :=
  fun u hu => Nat.le_trans u.depth_le_brackets (Nat.le_trans hu.brackets_le h)

/-! ## Types in scope -/

/-- No type in these surroundings has more than `n` brackets. -/
def Env.Within (n : Nat) (env : Env) : Prop := env.Holds fun t => brackets t.yield ≤ n

/-- The built-in types are written without brackets. -/
theorem Scope.brackets_builtIns : ∀ declaration ∈ builtIns, brackets declaration.2.yield ≤ 0 := by
  decide

/-- A statement writes the type of what it declares. -/
theorem Stmt.brackets_declaration (s : Stmt) :
    ∀ declaration ∈ s.declaration?, brackets declaration.2.yield ≤ brackets s.yield := by
  cases s with
  | letVar name type value =>
    rintro _ ⟨⟩
    simp only [Stmt.yield, brackets_append, brackets_cons]
    omega
  | letFun name params result body =>
    rintro _ ⟨⟩
    simp [Stmt.yield, Ty.yield, Terminal.kind]
  | _ => exact fun _ hmem => absurd hmem (Option.not_mem_none _)

namespace Env.Within

variable {n m : Nat} {env : Env}

theorem initial : Env.initial.Within 0 := Holds.initial Scope.brackets_builtIns

/-- A larger bound holds as well. -/
theorem mono (h : env.Within n) (hnm : n ≤ m) : env.Within m :=
  Holds.imp h fun _ ht => Nat.le_trans ht hnm

theorem block (h : env.Within n) : env.block.Within n := Holds.block h

/-- A body sees the parameters and the result that its head writes. -/
theorem inside (h : env.Within n) {params : List Param} {result : Ty} :
    (env.inside params result).Within
      (n + brackets (Params.yield params) + brackets result.yield) := by
  refine Holds.inside (h.mono (by omega)) (fun p hp => ?_) (by omega)
  have hle := (Params.standsIn_type (.refl (Params.yield params)) p hp).brackets_le
  omega

/-- What stands behind a statement sees what the statement declares. -/
theorem extend (h : env.Within n) (s : Stmt) :
    (env.extend s.declaration?).Within (n + brackets s.yield) := by
  refine Holds.extend (h.mono (Nat.le_add_right _ _)) fun declaration hmem => ?_
  exact Nat.le_add_left_of_le (s.brackets_declaration declaration hmem)

end Env.Within

/-! ## Types of expressions -/

/-- An array literal has one level more than its entries, and an empty one has one level. -/
theorem Typing.brackets_array {types : List Ty} {t : Ty} {n : Nat} (h : array types = .ok t)
    (htypes : ∀ u ∈ types, brackets u.yield ≤ n) : brackets t.yield ≤ n + 1 := by
  cases types with
  | nil =>
    cases h
    exact Nat.le_add_left 1 n
  | cons first rest =>
    rw [array_cons] at h
    split at h
    · cases h
    · cases h
      have hlevel := first.brackets_withDepth (first.depth + 1)
      have hfirst := htypes first List.mem_cons_self
      omega

/-- Indices take levels off. -/
theorem Typing.brackets_indexed {name : String} {declared t : Ty} {indices : Nat}
    (h : indexed name declared indices = .ok t) : brackets t.yield ≤ brackets declared.yield := by
  unfold indexed at h
  split at h
  · cases h
    have hlevel := declared.brackets_withDepth (declared.depth - indices)
    omega
  · cases h

section

variable {n : Nat} {env : Env}

mutual

/-- The type of an expression has no more brackets than the expression and what surrounds it. An
array literal writes the bracket that it adds to the type of its entries. -/
theorem Expr.brackets_le : ∀ {e : Expr} {t : Ty}, env.Within n → e.typeIn env = .ok t →
    brackets t.yield ≤ n + brackets e.yield
  | .cond condition, t, henv, h => by
    rw [Expr.typeIn] at h
    rw [(Condition.typeIn_iff.1 h).1]
    exact Nat.zero_le _
  | .add sum, t, henv, h => by
    rw [Expr.typeIn] at h
    rw [Expr.yield]
    exact AddExpr.brackets_le henv h
  | .array entries, t, henv, h => by
    rw [Expr.typeIn] at h
    obtain ⟨types, htypes, h⟩ := exists_ok_of_bind h
    have hle := Typing.brackets_array h (Exprs.brackets_le henv htypes)
    simp [Expr.yield, Terminal.kind]
    omega
  | .closure params result body, t, henv, h => by
    rw [Expr.typeIn] at h
    obtain ⟨_, -, h⟩ := exists_ok_of_bind h
    obtain ⟨_, -, h⟩ := exists_ok_of_bind h
    obtain ⟨_, -, h⟩ := exists_ok_of_bind h
    cases h
    -- The type is the head as it is written, so nothing of the surroundings counts.
    simp [Expr.yield, Ty.yield, Terminal.kind]
    omega

theorem Exprs.brackets_le : ∀ {es : List Expr} {types : List Ty}, env.Within n →
    Exprs.typesIn env es = .ok types →
      ∀ t ∈ types, brackets t.yield ≤ n + brackets (Exprs.yield es)
  | [], types, henv, h => by
    rw [Exprs.typesIn] at h
    cases h
    exact List.forall_mem_nil _
  | e :: es, types, henv, h => by
    rw [Exprs.typesIn] at h
    obtain ⟨first, he, h⟩ := exists_ok_of_bind h
    obtain ⟨rest, hes, h⟩ := exists_ok_of_bind h
    cases h
    rw [Exprs.brackets_cons]
    refine List.forall_mem_cons.2 ⟨?_, fun t ht => ?_⟩
    · have hle := Expr.brackets_le henv he
      omega
    · have hle := Exprs.brackets_le henv hes t ht
      omega

/-- The type of a sum is that of its first term. -/
theorem AddExpr.brackets_le : ∀ {sum : AddExpr} {t : Ty}, env.Within n → sum.typeIn env = .ok t →
    brackets t.yield ≤ n + brackets sum.yield
  | .single term, t, henv, h => by
    rw [AddExpr.typeIn] at h
    rw [AddExpr.yield]
    exact Term.brackets_le henv h
  | .chain term addop next, t, henv, h => by
    rw [AddExpr.typeIn] at h
    have hle := Term.brackets_le henv (Typing.chain_eq_ok_iff.1 h).1
    rw [AddExpr.yield, brackets_append]
    omega

/-- The type of a term is that of its first factor. -/
theorem Term.brackets_le : ∀ {term : Term} {t : Ty}, env.Within n → term.typeIn env = .ok t →
    brackets t.yield ≤ n + brackets term.yield
  | .single factor, t, henv, h => by
    rw [Term.typeIn] at h
    rw [Term.yield]
    exact Factor.brackets_le henv h
  | .chain factor mulop next, t, henv, h => by
    rw [Term.typeIn] at h
    have hle := Factor.brackets_le henv (Typing.chain_eq_ok_iff.1 h).1
    rw [Term.yield, brackets_append]
    omega

/-- The type of a variable is in scope, and so is the result of a call. -/
theorem Factor.brackets_le : ∀ {factor : Factor} {t : Ty}, env.Within n →
    factor.typeIn env = .ok t → brackets t.yield ≤ n + brackets factor.yield
  | .var name indices, t, henv, h => by
    rw [Factor.typeIn] at h
    obtain ⟨declared, hdeclared, h⟩ := exists_ok_of_bind h
    -- The type was paid for where the variable is declared; the brackets of indices are spare.
    have hindexed := Typing.brackets_indexed h
    have hscope := Env.Holds.lookup henv hdeclared
    omega
  | .call callee args, t, henv, h => by
    rw [Factor.typeIn] at h
    obtain ⟨declared, hdeclared, h⟩ := exists_ok_of_bind h
    obtain ⟨⟨params, result⟩, hsignature, h⟩ := exists_ok_of_bind h
    obtain ⟨_, -, h⟩ := exists_ok_of_bind h
    cases h
    -- The result is written in the type of the callee.
    obtain ⟨rfl, -⟩ := Typing.signature_eq_ok hsignature
    have hscope := Env.Holds.lookup henv hdeclared
    simp [Ty.yield, Terminal.kind] at hscope
    omega
  | .int value, t, henv, h => by
    rw [Factor.typeIn] at h
    cases h
    exact Nat.zero_le _
  | .float value, t, henv, h => by
    rw [Factor.typeIn] at h
    cases h
    exact Nat.zero_le _
  | .paren inner, t, henv, h => by
    rw [Factor.typeIn] at h
    have hle := Expr.brackets_le henv h
    simp [Factor.yield, Terminal.kind]
    omega

end

end

end FrontEnd
