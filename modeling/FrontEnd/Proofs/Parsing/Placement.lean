import FrontEnd.Proofs.Parsing.CorrectPrefix
import FrontEnd.Proofs.Parsing.Lockstep

/-!
# Parsers do not look at places

What a parser does depends on the kinds and texts of its tokens alone. If all places are changed by
some `f`, it answers the same tree, stops at the same token, or raises the same fault, which it
places where `f` takes the place of before.

- `Token.move`, `Cursor.move`: the same tokens at other places.
- `Correspondence.movedBy f`: tokens, places and diagnostics and what `f` makes of them.
- `Parser.Uniform f p q`: `q` does at the moved cursor what `p` does at a cursor.
- `Nonterminal.parser_uniform`, `Nonterminal.parse_error_move`: so it is for every phrase, since a
  run and its moved run are in lockstep.
-/

namespace FrontEnd

variable {f : Position → Position}

/-- The token at another place. -/
def Token.move (f : Position → Position) (t : Token) : Token :=
  { t with position := f t.position }

/-- The cursor with all its places changed. -/
def Cursor.move (f : Position → Position) (c : Cursor) : Cursor :=
  ⟨c.rest.map (Token.move f), f c.last⟩

/-! ## A run beside its moved run -/

namespace Correspondence

/-- Everything corresponds to what `f` makes of it. The diagnostics are grammatical and placed. -/
def movedBy (f : Position → Position) : Correspondence where
  tokens t u := t.move f = u
  places p q := f p = q
  diagnostics d d' := ∃ fault place, fault.kind = .grammatical ∧
    d = .placed fault place ∧ d' = .placed fault (f place)
  lexeme_eq := by
    rintro t _ rfl
    rfl
  position := by
    rintro t _ rfl
    rfl
  unexpectedToken := by
    rintro t _ rfl expected
    exact ⟨_, _, rfl, rfl, rfl⟩
  unexpectedEnd := by
    rintro p _ rfl expected
    exact ⟨_, _, rfl, rfl, rfl⟩
  expectedCondition := by
    rintro p _ rfl keyword
    exact ⟨_, _, rfl, rfl, rfl⟩
  invalidNumber := by
    rintro t _ rfl -
    exact ⟨_, _, rfl, rfl, rfl⟩

/-- Cursors correspond exactly if one is the other with its places moved. -/
theorem movedBy_cursors_iff {c d : Cursor} : (movedBy f).Cursors c d ↔ d = c.move f := by
  have hrest : List.Forall₂ (movedBy f).tokens c.rest d.rest ↔
      c.rest.map (Token.move f) = d.rest := by
    rw [← List.forall₂_eq_eq_eq, List.forall₂_map_left_iff]
    rfl
  constructor
  · rintro ⟨hmoved, hlast⟩
    obtain ⟨us, last⟩ := d
    rw [Cursor.move, hrest.1 hmoved]
    exact congrArg (Cursor.mk us) hlast.symm
  · rintro rfl
    exact ⟨hrest.2 rfl, rfl⟩

end Correspondence

namespace Parser

variable {n : Nat} {α : Type}

/-- Two runs that end alike but for the places: with the same answer, or with the same grammatical
fault. -/
inductive Parallel (f : Position → Position) :
    EStateM.Result Diagnostic (Cursor.Below n) α → EStateM.Result Diagnostic (Cursor.Below n) α →
      Prop where
  | ok {a : α} {s s' : Cursor.Below n} (hs : s'.1 = s.1.move f) :
    Parallel f (.ok a s) (.ok a s')
  | error {fault : Fault} {place : Position} {s s' : Cursor.Below n}
    (hkind : fault.kind = .grammatical) (hs : s'.1 = s.1.move f) :
    Parallel f (.error (.placed fault place) s) (.error (.placed fault (f place)) s')

/-- A run beside a successful one has the same answer, at the moved cursor. -/
theorem Parallel.of_ok {a : α} {s : Cursor.Below n}
    {r : EStateM.Result Diagnostic (Cursor.Below n) α} (h : Parallel f (.ok a s) r) :
    ∃ s' : Cursor.Below n, r = .ok a s' ∧ s'.1 = s.1.move f := by
  cases h with
  | ok hs => exact ⟨_, rfl, hs⟩

/-- A run beside a failing one has the same fault, at the moved place. -/
theorem Parallel.of_error {d : Diagnostic} {s : Cursor.Below n}
    {r : EStateM.Result Diagnostic (Cursor.Below n) α} (h : Parallel f (.error d s) r) :
    ∃ (fault : Fault) (place : Position) (s' : Cursor.Below n), d = .placed fault place ∧
      r = .error (.placed fault (f place)) s' ∧ fault.kind = .grammatical ∧ s'.1 = s.1.move f := by
  cases h with
  | error hkind hs => exact ⟨_, _, _, rfl, rfl, hkind, hs⟩

/-- Runs that end alike under the correspondence run in parallel. -/
theorem Parallel.of_endAlike {r r' : EStateM.Result Diagnostic (Cursor.Below n) α}
    (h : (Correspondence.movedBy f).EndAlike r r') : Parallel f r r' := by
  cases h with
  | ok hs => exact .ok (Correspondence.movedBy_cursors_iff.1 hs)
  | error hd hs =>
    obtain ⟨fault, place, hkind, rfl, rfl⟩ := hd
    exact .error hkind (Correspondence.movedBy_cursors_iff.1 hs)

/-- At a cursor moved by `f`, the parser `q` ends as `p` does at the cursor. -/
def Uniform (f : Position → Position) (p q : Parser n α) : Prop :=
  ∀ c c' : Cursor.Below n, c'.1 = c.1.move f → Parallel f (p c) (q c')

end Parser

open FrontEnd.Parser

namespace Nonterminal

theorem parser_uniform (n : Nat) (p : Nonterminal) : Uniform f (parser n p) (parser n p) :=
  fun c c' hc =>
    .of_endAlike (parser_lockstep n n p c c' (Correspondence.movedBy_cursors_iff.2 hc))

/-- A parse that fails is a run that fails at the bound that the input sets. -/
theorem parse_of_error {p : Nonterminal} {c : Cursor} {n : Nat} {d : Diagnostic}
    {s : Cursor.Below n} (hn : c.rest.length + 1 = n)
    (h : p.parser n ⟨c, hn ▸ Nat.lt_succ_self _⟩ = .error d s) : p.parse c = (.error d, s.1) := by
  subst hn
  unfold Nonterminal.parse Parser.run
  split
  · next tree stop hrun => cases hrun.symm.trans h
  · next d' stop hrun =>
    cases hrun.symm.trans h
    rfl

/-- A fault of a parser is grammatical. At changed places it is the same, and its place is changed
like all others. -/
theorem parse_error_move {p : Nonterminal} {c stop : Cursor} {d : Diagnostic}
    (h : p.parse c = (.error d, stop)) (f : Position → Position) :
    ∃ fault place, d = .placed fault place ∧ fault.kind = .grammatical ∧
      p.parse (c.move f) = (.error (.placed fault (f place)), stop.move f) := by
  have hlength : (c.move f).rest.length + 1 = c.rest.length + 1 :=
    congrArg Nat.succ (List.length_map _)
  obtain ⟨s, hrun, rfl⟩ := parse_eq_error h
  have hruns := parser_uniform (f := f) (c.rest.length + 1) p ⟨c, Nat.lt_succ_self _⟩
    ⟨c.move f, hlength ▸ Nat.lt_succ_self _⟩ rfl
  rw [hrun] at hruns
  obtain ⟨fault, place, s', rfl, hmoved, hkind, hs⟩ := hruns.of_error
  refine ⟨fault, place, rfl, hkind, ?_⟩
  rw [parse_of_error hlength hmoved, hs]

end Nonterminal

end FrontEnd
