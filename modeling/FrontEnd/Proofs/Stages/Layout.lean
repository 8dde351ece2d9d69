import FrontEnd.Analysis
import FrontEnd.Proofs.Parsing.Placement

/-!
# Layout

Line breaks and blanks between the tokens of a text move the places of the tokens and nothing else.
Two layouts of the same lexemes need not be related by a change of places: tokens that share a line
in each of them may be apart in the other. Both, however, come from one and the same list, in which
every token has a line of its own.

- `numbered`: that list; `numbered_move`: all tokens are those of their numbered lexemes, moved.
- `Nonterminal.parse_answer_move`, `parseAll_move`: parsing moved tokens answers the same, and moves
  the place of a fault.
- `parseProgram_layout`, `checkSource_layout`: so tokens with the same lexemes, and texts with such
  tokens, have the same tree or the same fault.
-/

namespace FrontEnd

open FrontEnd.Parser

variable {f : Position → Position}

/-! ## Tokens on lines of their own -/

/-- Lexemes as tokens: the first stands on line zero, and each further one a line below. -/
def numbered (lexemes : List (TokenKind × String)) : List Token :=
  lexemes.mapIdx fun i (kind, value) => ⟨kind, value, ⟨i, defaultFile⟩⟩

/-- The place of the token with the number of the line. -/
def placeOf (tokens : List Token) (p : Position) : Position :=
  (tokens[p.line]?.map Token.position).getD p

/-- Tokens are their numbered lexemes, moved to where they stand. -/
theorem numbered_move (tokens : List Token) :
    (numbered (tokens.map Token.lexeme)).map (Token.move (placeOf tokens)) = tokens := by
  refine List.ext_getElem? fun i => ?_
  rw [numbered, List.getElem?_map, List.getElem?_mapIdx, List.getElem?_map]
  cases h : tokens[i]? with
  | none => rfl
  | some t =>
    have hplace : placeOf tokens ⟨i, defaultFile⟩ = t.position := by
      rw [placeOf, h]
      rfl
    simp only [Option.map_some, Token.lexeme, Token.move, hplace]

/-! ## Parsing at changed places -/

namespace Diagnostic

/-- The diagnostic at another place. -/
def move (f : Position → Position) (d : Diagnostic) : Diagnostic :=
  { d with position := d.position.map f }

@[simp] theorem fault_move (d : Diagnostic) : (d.move f).fault = d.fault := rfl

end Diagnostic

namespace Nonterminal

theorem parse_of_answer {p : Nonterminal} {c : Cursor} {n : Nat} {tree : p.Tree}
    {s : Cursor.Below n} (hn : c.rest.length + 1 = n)
    (h : p.parser n ⟨c, hn ▸ Nat.lt_succ_self _⟩ = .ok tree s) : p.parse c = (.ok tree, s.1) := by
  subst hn
  unfold Nonterminal.parse Parser.run
  split
  · next tree' stop hrun =>
    cases hrun.symm.trans h
    rfl
  · next d stop hrun => cases hrun.symm.trans h

/-- At changed places a phrase has the same tree, and parsing stops at the same token. -/
theorem parse_answer_move {p : Nonterminal} {c stop : Cursor} {tree : p.Tree}
    (h : p.parse c = (.ok tree, stop)) (f : Position → Position) :
    p.parse (c.move f) = (.ok tree, stop.move f) := by
  have hlength : (c.move f).rest.length + 1 = c.rest.length + 1 :=
    congrArg Nat.succ (List.length_map _)
  obtain ⟨s, hrun, rfl⟩ := parse_eq_answer h
  have hruns := parser_uniform (f := f) (c.rest.length + 1) p ⟨c, Nat.lt_succ_self _⟩
    ⟨c.move f, hlength ▸ Nat.lt_succ_self _⟩ rfl
  rw [hrun] at hruns
  obtain ⟨s', hmoved, hs⟩ := hruns.of_ok
  rw [parse_of_answer hlength hmoved, hs]

end Nonterminal

theorem parseAll_move (c : Cursor) (f : Position → Position) :
    parseAll (c.move f) = (parseAll c).mapError (Diagnostic.move f) := by
  obtain ⟨⟨r, stop⟩, hparse⟩ : ∃ out, Nonterminal.stmts.parse c = out := ⟨_, rfl⟩
  cases r with
  | ok body =>
    have hmoved := Nonterminal.parse_answer_move hparse f
    -- What is left decides, and moving leaves as many tokens.
    obtain ⟨_ | ⟨t, ts⟩, last⟩ := stop
    · rw [parseAll, parseAll, hparse, hmoved]
      rfl
    · rw [parseAll, parseAll, hparse, hmoved]
      rfl
  | error d =>
    obtain ⟨fault, place, rfl, -, hmoved⟩ := Nonterminal.parse_error_move hparse f
    rw [parseAll, parseAll, hparse, hmoved]
    rfl

/-! ## The same lexemes -/

theorem Cursor.ofTokens_move {tokens : List Token} (hne : tokens ≠ []) (file other : String)
    (f : Position → Position) :
    Cursor.ofTokens (tokens.map (Token.move f)) file = (Cursor.ofTokens tokens other).move f := by
  have hlast := List.getLast?_eq_some_getLast hne
  rw [ofTokens, ofTokens, List.getLast?_map, hlast]
  rfl

/-- Neither the places of the tokens nor the name of the file tell which tree there is, or which
fault. -/
theorem parseProgram_move (tokens : List Token) (file other : String) (f : Position → Position) :
    (parseProgram (tokens.map (Token.move f)) file).mapError Diagnostic.fault =
      (parseProgram tokens other).mapError Diagnostic.fault := by
  have hfind : (tokens.map (Token.move f)).find? (·.kind == .unknown) =
      (tokens.find? (·.kind == .unknown)).map (Token.move f) := List.find?_map
  rw [parseProgram, parseProgram, hfind]
  cases tokens.find? (·.kind == .unknown) with
  | some t => rfl
  | none =>
    by_cases hne : tokens = []
    · subst hne
      rfl
    · show (parseAll _).mapError Diagnostic.fault = (parseAll _).mapError Diagnostic.fault
      rw [Cursor.ofTokens_move hne file other, parseAll_move]
      cases parseAll (.ofTokens tokens other) with
      | ok program => rfl
      | error d => rfl

/-- Tokens with the same lexemes have the same tree or the same fault. -/
theorem parseProgram_layout {tokens others : List Token}
    (h : tokens.map Token.lexeme = others.map Token.lexeme) (file other : String) :
    (parseProgram tokens file).mapError Diagnostic.fault =
      (parseProgram others other).mapError Diagnostic.fault := by
  have htokens := parseProgram_move (numbered (tokens.map Token.lexeme)) file defaultFile
    (placeOf tokens)
  have hothers := parseProgram_move (numbered (others.map Token.lexeme)) other defaultFile
    (placeOf others)
  rw [numbered_move] at htokens hothers
  rw [htokens, hothers, h]

/-! ## The same text in another layout -/

/-- Only the parser's answer counts for what follows. -/
theorem checkSource_mapError (source file : String) :
    (checkSource source file).mapError Diagnostic.fault =
      (parseProgram (tokenize source file) file).mapError Diagnostic.fault >>= fun program =>
        program.check.map fun _ => program := by
  rw [checkSource_eq]
  cases parseProgram (tokenize source file) file with
  | error d => rfl
  | ok program =>
    show Except.mapError Diagnostic.fault _ = program.check.map fun _ => program
    dsimp only
    cases program.check with
    | error fault => rfl
    | ok c => rfl

/-- **Layout**: two texts with the same lexemes in the same order, in whatever files and on whatever
lines, are both accepted with the same tree or both rejected for the same fault. -/
theorem checkSource_layout {source other file file' : String}
    (h : (tokenize source file).map Token.lexeme = (tokenize other file').map Token.lexeme) :
    (checkSource source file).mapError Diagnostic.fault =
      (checkSource other file').mapError Diagnostic.fault := by
  rw [checkSource_mapError, checkSource_mapError, parseProgram_layout h file file']

/-- A declaration without its semicolon. -/
def longLine : String := "let x\n: int <- 1"

/-- The same tokens, of which others share a line. -/
def shortLines : String := "let\nx : int\n\n<-\t1 "

/-- The lines of neither text are a function of those of the other, yet the faults are the same. -/
theorem shortLines_layout :
    (tokenize longLine "long").map Token.lexeme = (tokenize shortLines "short").map Token.lexeme ∧
      (checkSource longLine "long").mapError Diagnostic.fault =
        (checkSource shortLines "short").mapError Diagnostic.fault :=
  ⟨by decide +kernel, checkSource_layout (by decide +kernel)⟩

end FrontEnd
