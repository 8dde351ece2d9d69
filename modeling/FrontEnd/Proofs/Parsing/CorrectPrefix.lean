import FrontEnd.Proofs.Parsing.Exactness

/-!
# Syntax errors are reported at the first wrong token

- `Parsable`: tokens that make a program; `Continuable`: tokens that begin some that do.
- `Nonterminal.stmts_parse_error`, `Nonterminal.stmts_parse_ok`: where a run over statements stops,
  the tokens before are continuable. With the token that it stopped at they are not.
- `parseProgram_blames`: so a report blames the first token that makes the text hopeless, and the
  end of the input only if the text lacks something.

Two faults are outside this law. A plain value in place of a comparison, and a numeral that stands
for no number, are noticed behind the tokens that they concern.
-/

namespace FrontEnd

open FrontEnd.Parser

/-! ## Tokens that begin a program -/

/-- Tokens that are parsed to a program. -/
def Parsable (tokens : List Token) : Prop :=
  ∃ file program, parseProgram tokens file = .ok program

/-- Tokens that begin some that are parsed to a program. -/
def Continuable (tokens : List Token) : Prop :=
  ∃ whole, tokens <+: whole ∧ Parsable whole

/-- The name of the file has no part in what is parsed. -/
theorem Parsable.parse {tokens : List Token} (h : Parsable tokens) (file : String) :
    ∃ program, parseProgram tokens file = .ok program := by
  obtain ⟨other, program, hparse⟩ := h
  exact ⟨program, (yields_of_parseProgram hparse).parse file⟩

theorem parsable_of_derives {body : List Stmt} {tokens : List Token}
    (h : Nonterminal.stmts.Derives body tokens) : Parsable tokens := by
  have hyields : Program.Yields ⟨body⟩ tokens := h.2
  exact ⟨defaultFile, ⟨body⟩, hyields.parse defaultFile⟩

/-- Tokens that make a program are parsed to the end, at every bound. -/
theorem Parsable.runs {tokens : List Token} (h : Parsable tokens) {n : Nat} (last : Position)
    (hlt : (⟨tokens, last⟩ : Cursor).rest.length < n) :
    ∃ body stop, Nonterminal.stmts.parser n ⟨⟨tokens, last⟩, hlt⟩ = .ok body stop ∧
      stop.1.rest = [] := by
  obtain ⟨file, program, hparse⟩ := h
  have haccepts := Nonterminal.parser_accepts n .stmts program.body tokens [] trivial
    (yields_of_parseProgram hparse) rfl
  obtain ⟨hlt', hrun⟩ := haccepts last (by rwa [List.append_nil])
  simp only [List.append_nil] at hrun
  exact ⟨program.body, _, hrun, rfl⟩

theorem continuable_of_viable {ts : List Token} (h : Viable Nonterminal.stmts.Derives ts) :
    Continuable ts := by
  obtain ⟨body, us, hbody⟩ := h
  exact ⟨ts ++ us, List.prefix_append ts us, parsable_of_derives hbody⟩

/-- Tokens are not continuable if, at large bounds, no run in front of them reaches the end. -/
theorem not_continuable {n : Nat} {ts : List Token} {t : Token}
    (h : ∀ m, n ≤ m → ∀ rest, rest.head? = some t → ∀ last hlt body stop,
      Nonterminal.stmts.parser m ⟨⟨ts ++ rest, last⟩, hlt⟩ = .ok body stop → stop.1.rest ≠ []) :
    ¬ Continuable (ts ++ [t]) := by
  rintro ⟨whole, ⟨us, rfl⟩, hparsable⟩
  rw [List.append_assoc] at hparsable
  have hlt : (ts ++ t :: us).length < n + (ts ++ t :: us).length + 1 := by omega
  obtain ⟨body, stop, hrun, hstop⟩ := hparsable.runs ⟨1, defaultFile⟩ hlt
  exact h _ (by omega) (t :: us) rfl _ hlt body stop hrun hstop

/-! ## Where a run over statements stops -/

namespace Nonterminal

theorem parse_eq_error {p : Nonterminal} {c stop : Cursor} {d : Diagnostic}
    (h : p.parse c = (.error d, stop)) :
    ∃ s, p.parser (c.rest.length + 1) ⟨c, Nat.lt_succ_self _⟩ = .error d s ∧ s.1 = stop := by
  unfold Nonterminal.parse Parser.run at h
  split at h
  · cases h
  · next d' s hrun =>
    cases h
    exact ⟨s, hrun, rfl⟩

theorem parse_eq_answer {p : Nonterminal} {c stop : Cursor} {tree : p.Tree}
    (h : p.parse c = (.ok tree, stop)) :
    ∃ s, p.parser (c.rest.length + 1) ⟨c, Nat.lt_succ_self _⟩ = .ok tree s ∧ s.1 = stop := by
  unfold Nonterminal.parse Parser.run at h
  split at h
  · next tree' s hrun =>
    cases h
    exact ⟨s, hrun, rfl⟩
  · cases h

/-- A run that fails stops at the first token that cannot stand where it does, unless the fault is
one that is noticed later. -/
theorem stmts_parse_error {c stop : Cursor} {d : Diagnostic}
    (h : stmts.parse c = (.error d, stop)) :
    d.fault.isBelated = true ∨
      ∃ ts, c = ⟨ts ++ stop.rest, stop.last⟩ ∧ (∃ expected, d = stop.unexpected expected) ∧
        Continuable ts ∧ ∀ t, stop.rest.head? = some t → ¬ Continuable (ts ++ [t]) := by
  obtain ⟨s, hrun, rfl⟩ := parse_eq_error h
  have hpredicts := (parser_predictive (Nat.le_refl (c.rest.length + 1))).predicts .stmts
  refine (hpredicts.stalls _ _ _ hrun).imp_right ?_
  rintro ⟨ts, hc, hd, hviable⟩
  refine ⟨ts, hc, hd, continuable_of_viable hviable, fun t ht => ?_⟩
  refine not_continuable (n := c.rest.length + 1) fun m hm rest hrest last hlt body s' hok => ?_
  -- In front of any other continuation the run ends like the one that was seen.
  obtain ⟨us, hus, hrejects⟩ := ((parser_predictive hm).predicts .stmts).steady.error hrun
  obtain rfl : ts = us :=
    List.append_cancel_right (congrArg Cursor.rest (hc.symm.trans hus))
  obtain ⟨d', hlt', hfail⟩ := hrejects rest (hrest.trans ht.symm) last hlt
  cases hfail.symm.trans hok

/-- A run that succeeds stops at the end or at a token that cannot stand where it does. -/
theorem stmts_parse_ok {c stop : Cursor} {body : List Stmt}
    (h : stmts.parse c = (.ok body, stop)) :
    ∃ ts, c = ⟨ts ++ stop.rest, stop.last⟩ ∧ Continuable ts ∧
      ∀ t, stop.rest.head? = some t → ¬ Continuable (ts ++ [t]) := by
  obtain ⟨ts, hc, hderives⟩ := derives_of_parse h
  obtain ⟨s, hrun, rfl⟩ := parse_eq_answer h
  refine ⟨ts, hc, ⟨ts, List.prefix_refl ts, parsable_of_derives hderives⟩, fun t ht => ?_⟩
  refine not_continuable (n := c.rest.length + 1) fun m hm rest hrest last hlt body' s' hok => ?_
  obtain ⟨us, hus, haccepts⟩ := ((parser_predictive hm).predicts .stmts).steady.ok hrun
  obtain rfl : ts = us :=
    List.append_cancel_right (congrArg Cursor.rest (hc.symm.trans hus))
  obtain ⟨hlt', hstops⟩ := haccepts rest (hrest.trans ht.symm) last hlt
  cases hstops.symm.trans hok
  -- It stops in front of the token, and not at the end.
  rintro rfl
  cases hrest

end Nonterminal

/-! ## What a report says -/

/-- The token at place `i` is the first that makes the text hopeless: before it the text can be
continued to a program, with it the text cannot. -/
def FirstWrong (tokens : List Token) (i : Nat) (t : Token) : Prop :=
  tokens[i]? = some t ∧ Continuable (tokens.take i) ∧ ¬ Continuable (tokens.take (i + 1))

theorem firstWrong_append {ts rest : List Token} {t : Token} (hviable : Continuable ts)
    (hwrong : ¬ Continuable (ts ++ [t])) : FirstWrong (ts ++ t :: rest) ts.length t := by
  refine ⟨?_, ?_, ?_⟩
  · rw [List.getElem?_append_right (Nat.le_refl _), Nat.sub_self]
    rfl
  · rwa [List.take_left]
  · rwa [List.take_append, List.take_of_length_le (Nat.le_succ _), Nat.add_sub_cancel_left]

theorem not_parsable {tokens : List Token} {file : String} {d : Diagnostic}
    (h : parseProgram tokens file = .error d) : ¬ Parsable tokens := by
  intro hparsable
  obtain ⟨program, hparse⟩ := hparsable.parse file
  cases hparse.symm.trans h

/-- **Correct prefix**: an unexpected or trailing token is the first that makes the text hopeless,
and the text ends unexpectedly only if more can make it a program. -/
theorem parseProgram_blames (tokens : List Token) (file : String) :
    match parseProgram tokens file with
    | .error ⟨.unexpectedToken value _, position⟩ | .error ⟨.trailingTokens value, position⟩ =>
      ∃ i t, FirstWrong tokens i t ∧ value = t.value ∧ position = some t.position
    | .error ⟨.unexpectedEnd _, _⟩ =>
      ∃ whole, tokens <+: whole ∧ tokens ≠ whole ∧ Parsable whole
    | _ => True := by
  cases hknown : tokens.find? (·.kind == .unknown) with
  | some t =>
    simp only [parseProgram, hknown]
    exact trivial
  | none =>
    have hprogram : parseProgram tokens file = parseAll (.ofTokens tokens file) := by
      simp only [parseProgram, hknown]
    obtain ⟨⟨r, stop⟩, hparse⟩ : ∃ out, Nonterminal.stmts.parse (.ofTokens tokens file) = out :=
      ⟨_, rfl⟩
    rw [parseAll, hparse] at hprogram
    cases r with
    | error d =>
      rw [hprogram]
      -- A fault of the statements is either noticed too late or blames the lookahead, and then the
      -- tokens in front of it are viable.
      obtain hbelated | ⟨ts, hc, ⟨expected, rfl⟩, hviable, hwrong⟩ :=
        Nonterminal.stmts_parse_error hparse
      · obtain ⟨fault, position⟩ := d
        cases fault <;> trivial
      · obtain rfl : tokens = ts ++ stop.rest := congrArg Cursor.rest hc
        obtain ⟨_ | ⟨t, rest⟩, last⟩ := stop
        · obtain ⟨whole, hprefix, hwhole⟩ := hviable
          rw [List.append_nil] at hprogram ⊢
          exact ⟨whole, hprefix, fun heq => not_parsable hprogram (heq ▸ hwhole), hwhole⟩
        · exact ⟨ts.length, t, firstWrong_append hviable (hwrong t rfl), rfl, rfl⟩
    | ok body =>
      -- Statements that end in front of a token leave it behind, and it is the first wrong one.
      obtain ⟨ts, hc, hviable, hwrong⟩ := Nonterminal.stmts_parse_ok hparse
      obtain rfl : tokens = ts ++ stop.rest := congrArg Cursor.rest hc
      obtain ⟨_ | ⟨t, rest⟩, last⟩ := stop
      · rw [hprogram]
        trivial
      · rw [hprogram]
        exact ⟨ts.length, t, firstWrong_append hviable (hwrong t rfl), rfl, rfl⟩

end FrontEnd
