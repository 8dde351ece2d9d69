import FrontEnd.Analysis
import FrontEnd.Proofs.Lexing.Words
import FrontEnd.Proofs.Parsing.Exactness

/-!
# One program behind another

Two texts with a line break between them make the program that has the statements of the one and
then those of the other. Each stage contributes a law of its own.

- `tokenize_append`: a line break ends the word in front of it, so the tokens are those of both.
- `Program.Yields.append`: a yield behind a yield is one of both programs together. The parser
  accepts exactly the yields, so nothing of its lookahead reaches across the line break.
- `Stmts.check_append`, `Program.check_append`: the second program is checked from the context that
  the first one leaves.
- `checkSource_append`: all of this for the texts.
-/

namespace FrontEnd

/-! ## Tokens -/

/-- The lexemes of two texts with a line break between them. -/
theorem tokenize_append (source other file file₁ file₂ : String) :
    (tokenize (source ++ "\n" ++ other) file).map Token.lexeme =
      (tokenize source file₁).map Token.lexeme ++ (tokenize other file₂).map Token.lexeme := by
  have hchars : (source ++ "\n" ++ other).toList = source.toList ++ '\n' :: other.toList := by
    rw [String.toList_append, String.toList_append, List.append_assoc]
    rfl
  have hlines : (source ++ "\n" ++ other).toList.splitOn '\n' =
      source.toList.splitOn '\n' ++ other.toList.splitOn '\n' := by
    rw [hchars, List.splitOn_append_cons_self]
  rw [tokenize_eq, tokenize_eq, tokenize_eq, scanLines_lexemes, scanLines_lexemes,
    scanLines_lexemes, hlines, List.flatMap_append]

/-! ## Yields -/

/-- Whether a token meets a terminal does not depend on its place. -/
theorem Terminal.Matches.congr {a : Terminal} {t u : Token} (h : a.Matches t)
    (hlexeme : t.lexeme = u.lexeme) : a.Matches u := by
  have hkind : t.kind = u.kind := congrArg Prod.fst hlexeme
  have hvalue : t.value = u.value := congrArg Prod.snd hlexeme
  cases a with
  | mark kind => exact hkind.symm.trans h
  | word kind text => exact ⟨hkind ▸ h.1, hvalue ▸ h.2⟩
  | int value => exact ⟨hkind ▸ h.1, hvalue ▸ h.2⟩
  | float value => exact ⟨hkind ▸ h.1, hvalue ▸ h.2⟩

theorem Reads.congr {row : List Terminal} {ts us : List Token} (h : Reads row ts)
    (hlexemes : ts.map Token.lexeme = us.map Token.lexeme) : Reads row us := by
  induction h generalizing us with
  | nil =>
    obtain rfl : us = [] := List.map_eq_nil_iff.1 hlexemes.symm
    exact reads_nil.2 rfl
  | cons ht _ ih =>
    obtain _ | ⟨u, us⟩ := us
    · cases hlexemes
    · rw [List.map_cons, List.map_cons, List.cons.injEq] at hlexemes
      exact Reads.cons (ht.congr hlexemes.1) (ih hlexemes.2)

theorem Stmts.yield_append (body rest : List Stmt) :
    Stmts.yield (body ++ rest) = Stmts.yield body ++ Stmts.yield rest := by
  induction body with
  | nil =>
    rw [Stmts.yield]
    rfl
  | cons s body ih => rw [List.cons_append, Stmts.yield, Stmts.yield, ih, List.append_assoc]

/-- Tokens of one program and then of another are tokens of both, in one program. -/
theorem Program.Yields.append {first second : Program} {ts us : List Token}
    (hfirst : first.Yields ts) (hsecond : second.Yields us) :
    Program.Yields ⟨first.body ++ second.body⟩ (ts ++ us) := by
  unfold Program.Yields
  rw [Stmts.yield_append]
  exact Reads.append hfirst hsecond

/-! ## Checks -/

theorem Stmts.check_append (body rest : List Stmt) :
    Stmts.check (body ++ rest) = (do Stmts.check body; Stmts.check rest) := by
  induction body with
  | nil => rw [List.nil_append, Stmts.check, pure_bind]
  | cons s body ih => rw [List.cons_append, Stmts.check, Stmts.check, ih, bind_assoc]

/-- The second program is checked from where the first one ends, unless that has a fault. -/
theorem Program.check_append (first second : Program) :
    Program.check ⟨first.body ++ second.body⟩ =
      match first.check with
      | .error fault => .error fault
      | .ok c =>
        match Stmts.check second.body c with
        | .ok _ context => .ok context
        | .error fault _ => .error fault := by
  have happend : Stmts.check (first.body ++ second.body) .initial =
      EStateM.bind (Stmts.check first.body) (fun _ => Stmts.check second.body) .initial := by
    rw [Stmts.check_append]
    rfl
  unfold Program.check
  rw [happend, EStateM.bind]
  cases Stmts.check first.body .initial with
  | ok _ c => rfl
  | error fault c => rfl

/-! ## Texts -/

/-- **Composition**: two texts that can be parsed can be parsed with a line break between them, and
have the statements of both, in order. A fault of the first is the fault of the whole, and otherwise
the outcome is that of checking the second from the context at the end of the first. -/
theorem checkSource_append {source other file₁ file₂ : String} {first second : Program}
    (hfirst : parseProgram (tokenize source file₁) file₁ = .ok first)
    (hsecond : parseProgram (tokenize other file₂) file₂ = .ok second) (file : String) :
    parseProgram (tokenize (source ++ "\n" ++ other) file) file =
        .ok ⟨first.body ++ second.body⟩ ∧
      checkSource (source ++ "\n" ++ other) file =
        match first.check with
        | .error fault => .error (.semantic fault)
        | .ok c =>
          match Stmts.check second.body c with
          | .ok _ _ => .ok ⟨first.body ++ second.body⟩
          | .error fault _ => .error (.semantic fault) := by
  have hyields := (yields_of_parseProgram hfirst).append (yields_of_parseProgram hsecond)
  have hlexemes : (tokenize source file₁ ++ tokenize other file₂).map Token.lexeme =
      (tokenize (source ++ "\n" ++ other) file).map Token.lexeme := by
    rw [tokenize_append source other file file₁ file₂, List.map_append]
  -- A yield says nothing about the places of tokens, in which the two lists differ.
  have htokens : Program.Yields ⟨first.body ++ second.body⟩
      (tokenize (source ++ "\n" ++ other) file) := Reads.congr hyields hlexemes
  have hparse := htokens.parse file
  refine ⟨hparse, ?_⟩
  rw [checkSource_eq, hparse]
  dsimp only
  rw [Program.check_append]
  cases first.check with
  | error fault => rfl
  | ok c =>
    dsimp only
    cases Stmts.check second.body c with
    | ok _ context => rfl
    | error fault context => rfl

/-- A text that declares a variable. -/
def declaringText : String := "let x : int <- 1;"

/-- A text that reads the variable, and has a fault without its declaration. -/
def readingText : String := "let xs : [int] <- [x];"

/-- Behind the declaration, the text is accepted. -/
theorem declared_append :
    ∃ first second, parseProgram (tokenize declaringText defaultFile) defaultFile = .ok first ∧
      parseProgram (tokenize readingText defaultFile) defaultFile = .ok second ∧
      (checkSource readingText defaultFile).isOk = false ∧
      checkSource (declaringText ++ "\n" ++ readingText) defaultFile =
        .ok ⟨first.body ++ second.body⟩ := by
  have hfirst : (parseProgram (tokenize declaringText defaultFile) defaultFile).isOk = true := by
    decide +kernel
  have hsecond : (parseProgram (tokenize readingText defaultFile) defaultFile).isOk = true := by
    decide +kernel
  have halone : (checkSource readingText defaultFile).isOk = false := by decide +kernel
  have hboth : (checkSource (declaringText ++ "\n" ++ readingText) defaultFile).isOk = true := by
    decide +kernel
  cases hdeclaring : parseProgram (tokenize declaringText defaultFile) defaultFile with
  | error d =>
    rw [hdeclaring] at hfirst
    cases hfirst
  | ok first =>
    cases hreading : parseProgram (tokenize readingText defaultFile) defaultFile with
    | error d =>
      rw [hreading] at hsecond
      cases hsecond
    | ok second =>
      refine ⟨first, second, rfl, rfl, halone, ?_⟩
      have happend := (checkSource_append hdeclaring hreading defaultFile).2
      rw [happend] at hboth ⊢
      -- Of the three outcomes only acceptance is one.
      split at hboth
      · cases hboth
      · split at hboth
        · rfl
        · cases hboth

end FrontEnd
