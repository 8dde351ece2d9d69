import FrontEnd.Analysis
import FrontEnd.Proofs.Agreement.Equivalence
import FrontEnd.Proofs.Lexing.Letters
import FrontEnd.Proofs.Parsing.Exactness
import FrontEnd.Proofs.Scoping.Defaults
import FrontEnd.Proofs.TypeText.Names
import FrontEnd.Proofs.Typing.Arithmetic
import FrontEnd.Proofs.Typing.Conditions

/-!
# The wildcard does not spread

The wildcard agrees with every type. It is the type of the parameter of `print` and that of the
entries of an empty array, and no value of such a type may get a name, or else the name could be
used as anything. None does: what is declared has the type that is written, and the wildcard cannot
be written.

- `wildcard_notMem_yield`: the yield of a parsed program is without the wildcard, since no token
  stands for it.
- `Scopes.Confined`: no wildcard is in scope but that of the built-in `print`. Every step of a check
  of a program preserves this (`Context.Confined.step`), so it holds throughout (`points_confined`).
- `wildcard_confined`: so nothing that is named or called is of the wildcard, and what is of the
  wildcard is an array that is written out.
-/

namespace FrontEnd

/-! ## The wildcard cannot be written -/

/-- No primitive type has the name of the wildcard, which is an identifier as a word. -/
theorem primitive_ne_anyName {source file : String} {t : Token} (ht : t ∈ tokenize source file)
    (hkind : t.kind = .primitive) : t.value ≠ Ty.anyName := by
  have hnaming : t.kind.isNaming = true := by
    rw [hkind]
    rfl
  have hword := (isWord_of_mem_tokenize ht hnaming).2
  intro hvalue
  rw [hvalue, hkind] at hword
  exact absurd hword (by decide)

/-- The wildcard as a primitive type in a row. -/
def Terminal.wildcard : Terminal := .word .primitive Ty.anyName

/-- A row without the wildcard writes concrete types only. -/
theorem Ty.isConcrete_of_standsIn {row : List Terminal} (hrow : Terminal.wildcard ∉ row) (t : Ty)
    (h : StandsIn t.yield row) : t.isConcrete = true := by
  have hprimitive : ∀ name, Terminal.word .primitive name ∈ row → (name != anyName) = true := by
    intro name hname
    rw [bne_iff_ne]
    rintro rfl
    exact hrow hname
  rw [isConcrete_eq_namesAll]
  exact t.namesAll_of_standsIn hprimitive (fun _ _ => rfl) h

theorem wildcard_notMem_yield {source file : String} {program : Program}
    (h : parseProgram (tokenize source file) file = .ok program) :
    Terminal.wildcard ∉ Stmts.yield program.body := by
  intro hmem
  have hyields : Reads (Stmts.yield program.body) (tokenize source file) :=
    yields_of_parseProgram h
  obtain ⟨t, ht, hkind, hvalue⟩ := hyields.exists_of_mem hmem
  exact primitive_ne_anyName ht hkind hvalue

/-! ## Scopes without the wildcard -/

open Check

/-- Whether all declarations of a scope have concrete types. -/
def Scope.IsConcrete (scope : Scope) : Prop :=
  ∀ declaration ∈ scope, declaration.2.isConcrete = true

theorem Scope.IsConcrete.cons {scope : Scope} {name : String} {type : Ty}
    (htype : type.isConcrete = true) (hscope : scope.IsConcrete) :
    IsConcrete ((name, type) :: scope) :=
  List.forall_mem_cons.2 ⟨htype, hscope⟩

/-- Open scopes, innermost first, with concrete declarations apart from the built-in ones, which
stand at the bottom of the outermost scope. -/
inductive Scopes.Confined : List Scope → Prop
  | outermost (scope : Scope) (hscope : scope.IsConcrete) : Confined [scope ++ Scope.builtIns]
  | block (scope : Scope) (scopes : List Scope) (hscope : scope.IsConcrete)
    (hscopes : Confined scopes) : Confined (scope :: scopes)

/-- Whether no wildcard is in scope but that of the built-in `print`. -/
def Context.Confined (c : Context) : Prop := Scopes.Confined c.scopes

theorem Context.initial_confined : Context.initial.Confined :=
  .outermost [] (List.forall_mem_nil _)

theorem Context.Confined.declare {c stop : Context} {name : String} {type : Ty} {u : Unit}
    (hc : c.Confined) (htype : type.isConcrete = true)
    (hrun : Check.declare name type c = .ok u stop) : stop.Confined := by
  obtain ⟨rfl, -⟩ := (declare_agrees name type).of_ok hrun
  obtain ⟨scope, outer, results⟩ := c
  show Scopes.Confined (((name, type) :: scope) :: outer)
  cases (hc : Scopes.Confined (scope :: outer)) with
  | outermost own hown => exact .outermost ((name, type) :: own) (.cons htype hown)
  | block _ _ hscope hscopes => exact .block _ outer (.cons htype hscope) hscopes

theorem Context.Confined.closeScope {c stop : Context} {u : Unit} (hc : c.Confined)
    (hrun : Check.closeScope c = .ok u stop) : stop.Confined := by
  obtain ⟨scope, outer, results⟩ := c
  cases outer with
  | nil => cases hrun
  | cons next rest =>
    cases hrun
    -- A scope with another one around it is a block.
    cases (hc : Scopes.Confined (scope :: next :: rest)) with
    | block _ _ _ hscopes => exact hscopes

/-- A step of a check of a text without the wildcard lets no wildcard into scope. -/
theorem Context.Confined.step {row : List Terminal} (hrow : Terminal.wildcard ∉ row) (s : Step)
    (hs : s.WrittenIn row) (c : Context) (answer : s.Answer) (stop : Context) (hc : c.Confined)
    (hrun : s.check c = .ok answer stop) : stop.Confined := by
  cases s with
  | lookup name =>
    obtain ⟨rfl, -⟩ := (lookup_keeps name).of_ok hrun
    exact hc
  | resultType =>
    obtain ⟨rfl, -⟩ := resultType_keeps.of_ok hrun
    exact hc
  | declare name type => exact hc.declare (type.isConcrete_of_standsIn hrow hs) hrun
  | openScope =>
    cases hrun
    exact .block [] c.scopes (List.forall_mem_nil _) hc
  | closeScope => exact hc.closeScope hrun
  | enterBody result =>
    cases hrun
    exact hc
  | leaveBody =>
    cases hrun
    exact hc

/-- No wildcard is ever in scope in the check of a program but that of `print`. -/
theorem points_confined {source file : String} {program : Program}
    (h : parseProgram (tokenize source file) file = .ok program) :
    ∀ c ∈ program.points, c.Confined := by
  have honly := Stmts.script_only program.body (.refl _)
  exact honly.holds_at_points (Context.Confined.step (wildcard_notMem_yield h))
    Context.initial_confined

/-! ## Types where no wildcard is in scope -/

/-- The type of the built-in `print`. -/
def printType : Ty := .fn [⟨"x", .any 0, none⟩] .noValue 0

theorem Scope.builtIns_concrete :
    ∀ declaration ∈ builtIns, declaration.2.isConcrete = true ∨ declaration.2 = printType :=
  List.forall_mem_cons.2 ⟨.inr rfl, fun declaration h => .inl (by revert declaration; decide)⟩

theorem Scopes.Confined.mem {scopes : List Scope} (h : Confined scopes) :
    ∀ scope ∈ scopes, ∀ declaration ∈ scope,
      declaration.2.isConcrete = true ∨ declaration.2 = printType := by
  induction h with
  | outermost own hown =>
    refine List.forall_mem_singleton.2 fun declaration hmem => ?_
    rcases List.mem_append.1 hmem with hmem | hmem
    · exact .inl (hown declaration hmem)
    · exact Scope.builtIns_concrete declaration hmem
  | block scope scopes hscope _ ih =>
    exact List.forall_mem_cons.2 ⟨fun declaration hmem => .inl (hscope declaration hmem), ih⟩

theorem Context.Confined.lookup {c : Context} (hc : c.Confined) {name : String} {t : Ty}
    (ht : c.env.lookup name = .ok t) : t.isConcrete = true ∨ t = printType := by
  obtain ⟨scope, hscope, hmem⟩ := Env.exists_of_lookup ht
  exact hc.mem scope hscope (name, t) hmem

/-- An indexed variable keeps the base of its type. -/
theorem Typing.isAny_of_indexed {name : String} {declared t : Ty} {indices : Nat}
    (h : indexed name declared indices = .ok t) : t.isAny = declared.isAny := by
  unfold indexed at h
  split at h
  · cases h
    exact declared.isAny_withDepth _
  · cases h

/-- A chain has the type of its first operand, and this is arithmetic. -/
theorem Typing.isAny_of_chain {first rest : Except Fault Ty} {t : Ty}
    (h : (do
      let head ← first
      let tail ← rest
      joinable head tail
      return head) = .ok t) : t.isAny = false := by
  obtain ⟨-, tail, -, hjoin⟩ := chain_eq_ok_iff.1 h
  exact Ty.isAny_of_isArithmetic (joinable_eq_ok_iff.1 hjoin).2

theorem Context.Confined.var {c : Context} (hc : c.Confined) {name : String} {indices : List Expr}
    {t : Ty} (ht : (Factor.var name indices).typeIn c.env = .ok t) : t.isAny = false := by
  rw [Factor.typeIn] at ht
  obtain ⟨declared, hdeclared, hindexed⟩ := exists_ok_of_bind ht
  rw [Typing.isAny_of_indexed hindexed]
  rcases hc.lookup hdeclared with hconcrete | rfl
  · exact Ty.isAny_of_isConcrete hconcrete
  · rfl

theorem Context.Confined.call {c : Context} (hc : c.Confined) {callee : String} {args : List Arg}
    {t : Ty} (ht : (Factor.call callee args).typeIn c.env = .ok t) : t.isAny = false := by
  rw [Factor.typeIn] at ht
  obtain ⟨declared, hdeclared, ht⟩ := exists_ok_of_bind ht
  obtain ⟨⟨params, result⟩, hsignature, ht⟩ := exists_ok_of_bind ht
  obtain ⟨_, -, ht⟩ := exists_ok_of_bind ht
  cases ht
  obtain ⟨rfl, -⟩ := Typing.signature_eq_ok hsignature
  rcases hc.lookup hdeclared with hconcrete | hprint
  · exact Ty.isAny_of_isConcrete (Ty.isConcrete_fn.1 hconcrete).2
  · cases hprint
    rfl

/-- Whether an expression is an array that is written out, with or without parentheses. -/
inductive Expr.IsArrayLiteral : Expr → Prop
  | array (entries : List Expr) : IsArrayLiteral (.array entries)
  | paren (inner : Expr) (hinner : inner.IsArrayLiteral) :
    IsArrayLiteral (Factor.paren inner).toExpr

theorem Term.typeIn_isAny {env : Env} {term : Term} {t : Ty} (h : term.typeIn env = .ok t)
    (hany : t.isAny = true) :
    ∃ factor, term = .single factor ∧ factor.typeIn env = .ok t := by
  cases term with
  | single factor => exact ⟨factor, rfl, by rwa [Term.typeIn] at h⟩
  | chain factor mulop next =>
    rw [Term.typeIn] at h
    rw [Typing.isAny_of_chain h] at hany
    cases hany

theorem AddExpr.typeIn_isAny {env : Env} {sum : AddExpr} {t : Ty} (h : sum.typeIn env = .ok t)
    (hany : t.isAny = true) :
    ∃ factor, sum = .single (.single factor) ∧ factor.typeIn env = .ok t := by
  cases sum with
  | single term =>
    rw [AddExpr.typeIn] at h
    obtain ⟨factor, rfl, hfactor⟩ := Term.typeIn_isAny h hany
    exact ⟨factor, rfl, hfactor⟩
  | chain term addop next =>
    rw [AddExpr.typeIn] at h
    rw [Typing.isAny_of_chain h] at hany
    cases hany

/-- Where no wildcard is in scope, only arrays that are written out are of the wildcard. -/
theorem Context.Confined.isArrayLiteral {c : Context} (hc : c.Confined) : ∀ {e : Expr} {t : Ty},
    e.typeIn c.env = .ok t → t.isAny = true → e.IsArrayLiteral
  | .cond condition, t, h, hany => by
    rw [Expr.typeIn] at h
    rw [(Condition.typeIn_iff.1 h).1] at hany
    cases hany
  | .array entries, t, _, _ => .array entries
  | .closure params result body, t, h, hany => by
    rw [Expr.typeIn] at h
    obtain ⟨_, -, h⟩ := exists_ok_of_bind h
    obtain ⟨_, -, h⟩ := exists_ok_of_bind h
    obtain ⟨_, -, h⟩ := exists_ok_of_bind h
    cases h
    cases hany
  | .add sum, t, h, hany => by
    rw [Expr.typeIn] at h
    obtain ⟨factor, rfl, hfactor⟩ := AddExpr.typeIn_isAny h hany
    cases factor with
    | var name indices =>
      rw [hc.var hfactor] at hany
      cases hany
    | call callee args =>
      rw [hc.call hfactor] at hany
      cases hany
    | int value =>
      rw [Factor.typeIn] at hfactor
      cases hfactor
      cases hany
    | float value =>
      rw [Factor.typeIn] at hfactor
      cases hfactor
      cases hany
    | paren inner =>
      rw [Factor.typeIn] at hfactor
      exact .paren inner (hc.isArrayLiteral hfactor hany)

/-! ## The whole run -/

theorem Scopes.Confined.exists_eq {scopes : List Scope} (h : Confined scopes) :
    ∃ inner own, scopes = inner ++ [own ++ Scope.builtIns] ∧
      ∀ scope ∈ (own ++ Scope.builtIns.filter (·.1 != "print")) :: inner, scope.IsConcrete := by
  induction h with
  | outermost own hown =>
    -- Of the built-in functions, `print` is the only one with the wildcard in its type.
    have hothers : Scope.IsConcrete (Scope.builtIns.filter (·.1 != "print")) := by
      unfold Scope.IsConcrete
      decide
    refine ⟨[], own, rfl, List.forall_mem_singleton.2 ?_⟩
    exact List.forall_mem_append.2 ⟨hown, hothers⟩
  | block scope scopes hscope _ ih =>
    obtain ⟨inner, own, rfl, hconcrete⟩ := ih
    obtain ⟨hown, hinner⟩ := List.forall_mem_cons.1 hconcrete
    refine ⟨scope :: inner, own, rfl, ?_⟩
    exact List.forall_mem_cons.2 ⟨hown, List.forall_mem_cons.2 ⟨hscope, hinner⟩⟩

/-- **Confinement**: wherever the check of a text comes, no wildcard occurs in the type of anything
in scope, apart from the built-in `print`. So what is named there or called is not of the wildcard
at any depth, and an expression of the wildcard is an array literal, perhaps in parentheses. -/
theorem wildcard_confined {source file : String} {program : Program}
    (h : parseProgram (tokenize source file) file = .ok program) :
    ∀ c ∈ program.points,
      (∃ inner own, c.scopes = inner ++ [own ++ Scope.builtIns] ∧
        ∀ scope ∈ (own ++ Scope.builtIns.filter (·.1 != "print")) :: inner,
          ∀ declaration ∈ scope, declaration.2.isConcrete = true) ∧
      (∀ name indices t stop, (Factor.var name indices).check c = .ok t stop → t.isAny = false) ∧
      (∀ callee args t stop, (Factor.call callee args).check c = .ok t stop → t.isAny = false) ∧
      ∀ (e : Expr) t stop, e.check c = .ok t stop → t.isAny = true → e.IsArrayLiteral := by
  intro c hc
  have hconfined : c.Confined := points_confined h c hc
  refine ⟨Scopes.Confined.exists_eq hconfined, ?_, ?_, ?_⟩
  · intro name indices t stop hrun
    have htype := (Factor.check_keeps (.var name indices) c).of_ok hrun
    exact hconfined.var htype.2
  · intro callee args t stop hrun
    have htype := (Factor.check_keeps (.call callee args) c).of_ok hrun
    exact hconfined.call htype.2
  · intro e t stop hrun hany
    have htype := (e.check_keeps c).of_ok hrun
    exact hconfined.isArrayLiteral htype.2 hany

/-- An accepted text is parsed, and its check has a context at its end. -/
theorem exists_end_of_checkSource {source file : String} {program : Program}
    (h : checkSource source file = .ok program) :
    parseProgram (tokenize source file) file = .ok program ∧ ∃ c, program.check = .ok c := by
  have hstages := checkSource_stages source file
  rw [h] at hstages
  exact hstages

/-- A text that hands empty arrays over to a variable and to `print`. -/
def emptyArraysText : String := "let xs : [int] <- ([]); print(x: [[]]);"

/-- The text is accepted. At its end the wildcard is in scope in `print` only, although an array of
it can still be written out. -/
theorem emptyArrays_confined :
    ∃ program c, checkSource emptyArraysText defaultFile = .ok program ∧ program.check = .ok c ∧
      (∃ inner own, c.scopes = inner ++ [own ++ Scope.builtIns] ∧
        ∀ scope ∈ (own ++ Scope.builtIns.filter (·.1 != "print")) :: inner,
          ∀ declaration ∈ scope, declaration.2.isConcrete = true) ∧
      (Factor.paren (.array [.array []])).toExpr.check c = .ok (.any 2) c ∧
      (Factor.paren (.array [.array []])).toExpr.IsArrayLiteral := by
  have haccepted : (checkSource emptyArraysText defaultFile).isOk = true := by decide +kernel
  cases hsource : checkSource emptyArraysText defaultFile with
  | error d =>
    rw [hsource] at haccepted
    cases haccepted
  | ok program =>
    obtain ⟨hparse, c, hcheck⟩ := exists_end_of_checkSource hsource
    have hpoint := wildcard_confined hparse c (Program.mem_points_of_check hcheck)
    have hrun : (Factor.paren (.array [.array []])).toExpr.check c = .ok (.any 2) c := rfl
    exact ⟨program, c, rfl, hcheck, hpoint.1, hrun, hpoint.2.2.2 _ _ _ hrun rfl⟩

end FrontEnd
