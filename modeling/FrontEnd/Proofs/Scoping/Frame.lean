import FrontEnd.Proofs.Scoping.Refinement

/-!
# What a successful check leaves behind

Expressions open and close whole function bodies while they are checked, and statements blocks as
well. If the check succeeds, all that it opened is closed again.

- `Check.Leaves m c Q`: if `m` succeeds from `c`, the context that it leaves satisfies `Q`.
- `Check.Keeps.leaves`: what agrees with a lexical rule and keeps the context leaves it as it was.
- `Stmt.check_leaves`: a statement leaves it as it was, but for the name that it declares.
- `check_frame`: so the scopes and result types around a tree never change, and a program ends
  outside all blocks and bodies.
-/

namespace FrontEnd

open Check

/-- A rule that succeeds has succeeded up to any of its steps. -/
theorem exists_ok_of_bind {α β : Type} {r : Except Fault α} {g : α → Except Fault β} {b : β}
    (h : r >>= g = .ok b) : ∃ a, r = .ok a ∧ g a = .ok b := by
  cases r with
  | ok a => exact ⟨a, rfl, h⟩
  | error fault => cases h

/-- Rules in sequence succeed exactly if each of them does. -/
theorem bind_eq_ok_iff {α β : Type} {r : Except Fault α} {g : α → Except Fault β} {b : β} :
    r >>= g = .ok b ↔ ∃ a, r = .ok a ∧ g a = .ok b := by
  constructor
  · exact exists_ok_of_bind
  · rintro ⟨a, rfl, h⟩
    exact h

/-- What a name means has been declared in one of the scopes. -/
theorem Env.exists_of_lookup {env : Env} {name : String} {type : Ty}
    (h : env.lookup name = .ok type) : ∃ scope ∈ env.scopes, (name, type) ∈ scope := by
  unfold Env.lookup at h
  split at h
  · next hfound =>
    cases h
    obtain ⟨scope, hscope, hfind⟩ := List.exists_of_findSome?_eq_some hfound
    obtain ⟨above, below, rfl, -⟩ := List.lookup_eq_some_iff.1 hfind
    exact ⟨_, hscope, List.mem_append_cons_self⟩
  · cases h

/-- A vacant name has no declaration in its block. -/
theorem Env.find?_of_vacant {env : Env} {name : String} (h : env.vacant name = .ok ()) :
    env.scope.find? name = none := by
  unfold Env.vacant at h
  split at h
  · cases h
  · next hnone => simpa using hnone

/-- What a statement without a fault declares was not declared in its block before. -/
theorem Stmt.find?_of_checkIn {s : Stmt} {env : Env} {declaration : String × Ty}
    (h : s.checkIn env = .ok ()) (hs : s.declaration? = some declaration) :
    env.scope.find? declaration.1 = none := by
  cases s with
  | letVar name type value =>
    cases hs
    rw [Stmt.checkIn] at h
    obtain ⟨received, -, h⟩ := exists_ok_of_bind h
    obtain ⟨-, -, h⟩ := exists_ok_of_bind h
    exact Env.find?_of_vacant h
  | letFun name params result body =>
    cases hs
    rw [Stmt.checkIn] at h
    obtain ⟨inner, -, h⟩ := exists_ok_of_bind h
    obtain ⟨-, -, h⟩ := exists_ok_of_bind h
    exact Env.find?_of_vacant h
  | _ => cases hs

/-! ## The context behind a success -/

namespace Check

variable {α : Type}

/-- If the check succeeds from `c`, the context that it leaves satisfies `Q`. -/
def Leaves (m : Check α) (c : Context) (Q : Context → Prop) : Prop :=
  match m c with
  | .ok _ stop => Q stop
  | .error _ _ => True

/-- A success that leaves a good context. -/
theorem Leaves.of_ok {a : α} {m : Check α} {c stop : Context} {Q : Context → Prop}
    (h : m c = .ok a stop) (hQ : Q stop) : m.Leaves c Q := by
  unfold Leaves
  rw [h]
  exact hQ

/-- A fault leaves nothing to show about a success. -/
theorem Leaves.of_error {fault : Fault} {m : Check α} {c stop : Context} {Q : Context → Prop}
    (h : m c = .error fault stop) : m.Leaves c Q := by
  unfold Leaves
  rw [h]
  trivial

/-- The context behind a success is as promised. -/
theorem Leaves.elim {a : α} {m : Check α} {c stop : Context} {Q : Context → Prop}
    (h : m.Leaves c Q) (hrun : m c = .ok a stop) : Q stop := by
  unfold Leaves at h
  rw [hrun] at h
  exact h

/-- Less may be promised of the context behind a success. -/
theorem Leaves.mono {m : Check α} {c : Context} {Q Q' : Context → Prop} (h : m.Leaves c Q)
    (hQ : ∀ stop, Q stop → Q' stop) : m.Leaves c Q' := by
  cases hrun : m c with
  | ok a stop => exact .of_ok hrun (hQ stop (h.elim hrun))
  | error fault stop => exact .of_error hrun

/-- What agrees with a rule leaves the context that the rule says. -/
theorem Agrees.leaves {m : Check α} {c stop : Context} {r : Except Fault α} {Q : Context → Prop}
    (h : m.Agrees c r stop) (hQ : ∀ a, r = .ok a → Q stop) : m.Leaves c Q := by
  cases r with
  | ok a =>
    have hrun : m c = .ok a stop := h
    exact .of_ok hrun (hQ a rfl)
  | error fault =>
    obtain ⟨c', hrun⟩ : ∃ c', m c = .error fault c' := h
    exact .of_error hrun

/-- A check succeeds exactly if its rule does, with the same answer. -/
theorem Agrees.eq_ok_iff {a : α} {m : Check α} {c stop stop' : Context} {r : Except Fault α}
    (h : m.Agrees c r stop) : m c = .ok a stop' ↔ stop' = stop ∧ r = .ok a := by
  cases r with
  | ok b =>
    have hrun : m c = .ok b stop := h
    rw [hrun]
    constructor
    · rintro ⟨⟩
      exact ⟨rfl, rfl⟩
    · rintro ⟨rfl, ⟨⟩⟩
      rfl
  | error fault =>
    obtain ⟨c', hrun⟩ : ∃ c', m c = .error fault c' := h
    rw [hrun]
    exact ⟨nofun, nofun⟩

/-- A check that succeeds ends where its rule says, with the answer of the rule. -/
theorem Agrees.of_ok {a : α} {m : Check α} {c stop stop' : Context} {r : Except Fault α}
    (h : m.Agrees c r stop) (hrun : m c = .ok a stop') : stop' = stop ∧ r = .ok a :=
  h.eq_ok_iff.1 hrun

/-- A check that keeps the context answers from it what its rule answers. -/
theorem Keeps.ok_iff {a : α} {m : Check α} {c : Context} {r : Except Fault α} (h : m.Keeps c r) :
    m c = .ok a c ↔ r = .ok a := by
  rw [h.eq_ok_iff]
  exact and_iff_right rfl

/-- What keeps the context leaves it as it was. -/
theorem Keeps.leaves {m : Check α} {c : Context} {r : Except Fault α} (h : m.Keeps c r) :
    m.Leaves c (· = c) :=
  Agrees.leaves h fun _ _ => rfl

end Check

/-- What a statement does to the context in front of it: a declaration adds its own name, which
its scope did not have, and everything else changes nothing. -/
def Stmt.Adds (s : Stmt) (c stop : Context) : Prop :=
  match s with
  | .letVar name type _ =>
    c.scope.find? name = none ∧ stop = { c with scope := (name, type) :: c.scope }
  | .letFun name params result _ =>
    c.scope.find? name = none ∧ stop = { c with scope := (name, .fn params result 0) :: c.scope }
  | _ => stop = c

/-- A statement that is accepted leaves the context with its own name added, if it declares one. -/
theorem Stmt.check_leaves (s : Stmt) (c : Context) : s.check.Leaves c (s.Adds c) := by
  refine (s.check_agrees c).leaves fun _ hrule => ?_
  have hvacant : ∀ declaration, s.declaration? = some declaration →
      c.scope.find? declaration.1 = none :=
    fun _ hs => Stmt.find?_of_checkIn hrule hs
  cases s with
  | letVar name type value => exact ⟨hvacant (name, type) rfl, rfl⟩
  | letFun name params result body => exact ⟨hvacant (name, .fn params result 0) rfl, rfl⟩
  | _ => rfl

/-- An accepted program ends in the global scope and outside of all bodies. -/
theorem Program.check_leaves (program : Program) :
    match program.check with
    | .ok stop => stop.depth = 1 ∧ stop.results = []
    | .error _ => True := by
  rw [program.check_eq]
  cases program.checkLexically with
  | ok _ => exact ⟨rfl, rfl⟩
  | error fault => trivial

/-- **Frame**: a successful check of an expression, or of any part of one, leaves the scopes and the
result types as they were, and that of a statement adds at most the name that it declares. After an
accepted conditional or loop the names mean what they meant in front of it, and an accepted program
ends with the global scope alone. -/
theorem check_frame :
    (∀ (e : Expr) (c : Context), e.check.Leaves c (· = c)) ∧
    (∀ (condition : Condition) (c : Context), condition.check.Leaves c (· = c)) ∧
    (∀ (sum : AddExpr) (c : Context), sum.check.Leaves c (· = c)) ∧
    (∀ (term : Term) (c : Context), term.check.Leaves c (· = c)) ∧
    (∀ (factor : Factor) (c : Context), factor.check.Leaves c (· = c)) ∧
    (∀ (s : Stmt) (c : Context), s.check.Leaves c (s.Adds c)) ∧
    (∀ (condition : Condition) (body otherwise : List Stmt) (c : Context),
      (Stmt.ifThen condition body).check.Leaves c (·.find? = c.find?) ∧
      (Stmt.ifElse condition body otherwise).check.Leaves c (·.find? = c.find?) ∧
      (Stmt.loop condition body).check.Leaves c (·.find? = c.find?)) ∧
    ∀ program : Program, match program.check with
      | .ok stop => stop.depth = 1 ∧ stop.results = []
      | .error _ => True := by
  refine ⟨?_, ?_, ?_, ?_, ?_, Stmt.check_leaves, ?_, Program.check_leaves⟩
  · exact fun e c => (e.check_keeps c).leaves
  · exact fun condition c => (condition.check_keeps c).leaves
  · exact fun sum c => (sum.check_keeps c).leaves
  · exact fun term c => (term.check_keeps c).leaves
  · exact fun factor c => (factor.check_keeps c).leaves
  · intro condition body otherwise c
    have hsame : ∀ s : Stmt, s.declaration? = none → s.check.Leaves c (·.find? = c.find?) := by
      intro s hs
      refine (s.check_agrees c).leaves fun _ _ => ?_
      rw [hs]
      rfl
    exact ⟨hsame _ rfl, hsame _ rfl, hsame _ rfl⟩

end FrontEnd
