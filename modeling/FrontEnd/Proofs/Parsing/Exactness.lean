import FrontEnd.Parser.Grammar
import FrontEnd.Proofs.Grammar.Kinds
import FrontEnd.Proofs.Parsing.Completeness
import FrontEnd.Proofs.Parsing.Soundness
import Mathlib.Data.Set.Subsingleton

/-!
# The parser accepts exactly the grammar

A list of tokens is parsed to a program if and only if it is a yield of the program
(`parseProgram_exact`). Since a list is parsed to one program at most, no list is a yield of two
programs: the grammar is unambiguous.
-/

namespace FrontEnd

/-- A yield holds no token that the language does not know. -/
theorem Program.Yields.known {program : Program} {tokens : List Token}
    (h : program.Yields tokens) : tokens.find? (·.kind == .unknown) = none := by
  have hkinds : tokens.map Token.kind = rowKinds (Stmts.yield program.body) := Reads.kinds h
  refine List.find?_eq_none.2 fun t ht hunknown => ?_
  have hmem : t.kind ∈ rowKinds (Stmts.yield program.body) :=
    hkinds ▸ List.mem_map_of_mem ht
  rw [eq_of_beq hunknown] at hmem
  exact Stmts.unknown_notMem _ hmem

/-- Every yield is parsed to its program. -/
theorem Program.Yields.parse {program : Program} {tokens : List Token}
    (h : program.Yields tokens) (file : String) : parseProgram tokens file = .ok program := by
  have hend : Nonterminal.stmts.EndsBefore [] := rfl
  have hparse := Nonterminal.parse_eq_ok .stmts trivial h hend (Cursor.ofTokens tokens file).last
  rw [List.append_nil] at hparse
  have hcursor : Cursor.ofTokens tokens file = ⟨tokens, (Cursor.ofTokens tokens file).last⟩ := rfl
  simp only [parseProgram, h.known, parseAll]
  rw [hcursor, hparse]

/-- What is parsed is a yield of the program. -/
theorem yields_of_parseProgram {program : Program} {tokens : List Token} {file : String}
    (h : parseProgram tokens file = .ok program) : program.Yields tokens := by
  unfold parseProgram at h
  split at h
  · cases h
  · unfold parseAll at h
    split at h
    · cases h
    · next body last hparse =>
      cases h
      obtain ⟨ts, hcursor, -, hts⟩ := Nonterminal.derives_of_parse hparse
      have htokens : tokens = ts ++ [] := congrArg Cursor.rest hcursor
      rw [htokens, List.append_nil]
      exact hts
    · cases h

/-- **Exactness**: parsing inverts yielding. The tokens of a program lead to that program and to no
other, and no other tokens lead to it. -/
theorem parseProgram_exact (tokens : List Token) (file : String) :
    (∀ program : Program, parseProgram tokens file = .ok program ↔ program.Yields tokens) ∧
      {program : Program | program.Yields tokens}.Subsingleton := by
  refine ⟨fun program => ⟨yields_of_parseProgram, fun h => h.parse file⟩, fun p hp q hq => ?_⟩
  have hok : Except.ok p = Except.ok q := (hp.parse file).symm.trans (hq.parse file)
  exact Except.ok.inj hok

end FrontEnd
