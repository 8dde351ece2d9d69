import FrontEnd.Proofs.Parsing.CorrectPrefix
import FrontEnd.Proofs.Parsing.Lockstep

/-!
# What a parser blames

Every run is in lockstep with itself. That says which tokens and places its diagnostics name, and
that a larger bound changes nothing.

- `Diagnostic.Concerns c`: the diagnostics that a run can raise at the cursor `c`.
- `Nonterminal.concerns_of_parse`: it raises no others.
- `Nonterminal.outcome_bound`: at every bound that admits the cursor a phrase ends as it does at
  the least.
- `parseProgram_error_cases`: what can be wrong with a program.
-/

namespace FrontEnd

/-- The places of the tokens left and of the end of the input. -/
def Cursor.places (c : Cursor) : List Position := c.last :: c.rest.map Token.position

theorem Cursor.position_mem_places {c : Cursor} {t : Token} (ht : t ∈ c.rest) :
    t.position ∈ c.places :=
  List.mem_cons_of_mem _ (List.mem_map_of_mem ht)

/-- What a run can find wrong with the tokens at a cursor. -/
inductive Diagnostic.Concerns (c : Cursor) : Diagnostic → Prop
  | unexpectedToken {t : Token} (ht : t ∈ c.rest) (expected : String) :
    Concerns c (.placed (.unexpectedToken t.value expected) t.position)
  | unexpectedEnd {place : Position} (hplace : place ∈ c.places) (expected : String) :
    Concerns c (.placed (.unexpectedEnd expected) place)
  | expectedCondition {place : Position} (hplace : place ∈ c.places) (keyword : String) :
    Concerns c (.placed (.expectedCondition keyword) place)
  | invalidNumber {t : Token} (ht : t ∈ c.rest) (hvalue : t.IsUnreadable) :
    Concerns c (.placed (.invalidNumber t.value) t.position)

/-- What is wrong is grammatical, and placed at a token or at the end of the input. -/
theorem Diagnostic.Concerns.placed {c : Cursor} {d : Diagnostic} (h : d.Concerns c) :
    ∃ fault, ∃ place ∈ c.places, d = .placed fault place ∧ fault.kind = .grammatical := by
  cases h with
  | unexpectedToken ht => exact ⟨_, _, Cursor.position_mem_places ht, rfl, rfl⟩
  | unexpectedEnd hplace => exact ⟨_, _, hplace, rfl, rfl⟩
  | expectedCondition hplace => exact ⟨_, _, hplace, rfl, rfl⟩
  | invalidNumber ht => exact ⟨_, _, Cursor.position_mem_places ht, rfl, rfl⟩

/-! ## A run beside itself -/

namespace Correspondence

/-- The tokens and places of `c` correspond to themselves. -/
def within (c : Cursor) : Correspondence where
  tokens t u := u = t ∧ t ∈ c.rest
  places p q := q = p ∧ p ∈ c.places
  diagnostics d d' := d' = d ∧ d.Concerns c
  lexeme_eq h := congrArg Token.lexeme h.1.symm
  position h := ⟨congrArg Token.position h.1, Cursor.position_mem_places h.2⟩
  unexpectedToken := by
    rintro t _ ⟨rfl, ht⟩ expected
    exact ⟨rfl, .unexpectedToken ht expected⟩
  unexpectedEnd := by
    rintro place _ ⟨rfl, hplace⟩ expected
    exact ⟨rfl, .unexpectedEnd hplace expected⟩
  expectedCondition := by
    rintro place _ ⟨rfl, hplace⟩ keyword
    exact ⟨rfl, .expectedCondition hplace keyword⟩
  invalidNumber := by
    rintro t _ ⟨rfl, ht⟩ hvalue
    exact ⟨rfl, .invalidNumber ht hvalue⟩

theorem within_self (c : Cursor) : (within c).Cursors c c where
  rest := List.forall₂_same.2 fun _ ht => ⟨rfl, ht⟩
  last := ⟨rfl, List.mem_cons_self⟩

theorem Cursors.eq_of_within {c s s' : Cursor} (h : (within c).Cursors s s') : s' = s := by
  obtain ⟨rest, last⟩ := s
  obtain ⟨rest', last'⟩ := s'
  have hrest : List.Forall₂ (fun t u => t = u) rest rest' := h.rest.imp fun _ _ ht => ht.1.symm
  have hlast : last' = last := h.last.1
  rw [List.forall₂_eq_eq_eq] at hrest
  rw [hrest, hlast]

end Correspondence

namespace Parser

variable {n m : Nat} {α : Type}

/-- How a run ends, without the bound under which it ran. -/
def outcome : EStateM.Result Diagnostic (Cursor.Below n) α → Except Diagnostic α × Cursor
  | .ok a stop => (.ok a, stop.1)
  | .error d stop => (.error d, stop.1)

theorem run_eq_outcome (p : ∀ n, Parser n α) (c : Cursor) :
    run p c = outcome (p (c.rest.length + 1) ⟨c, Nat.lt_succ_self _⟩) := by
  unfold run
  cases p (c.rest.length + 1) ⟨c, Nat.lt_succ_self _⟩ <;> rfl

theorem outcome_eq_of_within {c : Cursor} {r : EStateM.Result Diagnostic (Cursor.Below n) α}
    {r' : EStateM.Result Diagnostic (Cursor.Below m) α}
    (h : (Correspondence.within c).EndAlike r r') : outcome r = outcome r' := by
  cases h with
  | ok hs => rw [outcome, outcome, hs.eq_of_within]
  | error hd hs => rw [outcome, outcome, hd.1, hs.eq_of_within]

end Parser

open FrontEnd.Parser

namespace Nonterminal

/-- A larger bound changes nothing. -/
theorem outcome_bound (p : Nonterminal) {n : Nat} (c : Cursor.Below n) :
    outcome (p.parser n c) = p.parse c.1 := by
  rw [parse, run_eq_outcome]
  exact outcome_eq_of_within
    (parser_lockstep n (c.1.rest.length + 1) p c _ (Correspondence.within_self c.1))

/-- A diagnostic names tokens and places of the cursor, and blames numerals that cannot be read. -/
theorem concerns_of_parse {p : Nonterminal} {c stop : Cursor} {d : Diagnostic}
    (h : p.parse c = (.error d, stop)) : d.Concerns c := by
  obtain ⟨s, hrun, -⟩ := parse_eq_error h
  have halike := parser_lockstep (c.rest.length + 1) (c.rest.length + 1) p
    ⟨c, Nat.lt_succ_self _⟩ ⟨c, Nat.lt_succ_self _⟩ (Correspondence.within_self c)
  rw [hrun] at halike
  obtain ⟨d', s', -, hd, -⟩ := halike.of_error
  exact hd.2

end Nonterminal

/-! ## Programs -/

/-- All ways in which tokens can fail to form a program. -/
theorem parseProgram_error_cases {tokens : List Token} {file : String} {d : Diagnostic}
    (h : parseProgram tokens file = .error d) :
    (∃ t ∈ tokens, t.kind = .unknown ∧ d = .placed (.unrecognisedToken t.value) t.position) ∨
      (∃ t ∈ tokens, d = .placed (.trailingTokens t.value) t.position) ∨
      d.Concerns (.ofTokens tokens file) := by
  unfold parseProgram at h
  split at h
  · next t hfind =>
    cases h
    exact .inl ⟨t, List.mem_of_find?_eq_some hfind,
      eq_of_beq (List.find?_eq_some_iff_append.1 hfind).1, rfl⟩
  · unfold parseAll at h
    split at h
    · next hparse =>
      cases h
      exact .inr (.inr (Nonterminal.concerns_of_parse hparse))
    · cases h
    · next t rest last hparse =>
      cases h
      obtain ⟨ts, hcursor, -⟩ := Nonterminal.derives_of_parse hparse
      have htokens : tokens = ts ++ t :: rest := congrArg Cursor.rest hcursor
      exact .inr (.inl ⟨t, htokens ▸ List.mem_append_cons_self, rfl⟩)

end FrontEnd
