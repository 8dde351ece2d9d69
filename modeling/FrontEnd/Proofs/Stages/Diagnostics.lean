import FrontEnd.Analysis
import FrontEnd.Proofs.Parsing.Blame
import FrontEnd.Proofs.Stages.RuleFaults

/-!
# The stage of a diagnostic

A source text is rejected by the first stage that finds a fault, and its diagnostic tells which.

- `Diagnostic.Grounded`: a diagnostic with a place has it from a token and is one of the first two
  stages; one without a place is a fault of the rules.
- `parseAll_grounded`, `checkSource_grounded`: all diagnostics are.
- `checkSource_error_cases`: every way in which a text can be rejected.
- `checkSource_blames_stage`: an unknown token is reported before everything else, and nothing else
  is reported as a lexical fault.
-/

namespace FrontEnd

/-- Lexical and grammatical faults are placed at one of the tokens; all other faults are those that
a rule can raise and have no place. -/
inductive Diagnostic.Grounded (tokens : List Token) : Diagnostic → Prop
  | placed {fault : Fault} {t : Token} (ht : t ∈ tokens)
      (hkind : fault.kind = .lexical ∨ fault.kind = .grammatical) :
      Grounded tokens (.placed fault t.position)
  | semantic {fault : Fault} (hrule : fault.isSemantic = true) :
      Grounded tokens (.semantic fault)

namespace Diagnostic.Grounded

variable {tokens : List Token} {d : Diagnostic}

/-- A diagnostic has a place exactly if it comes from one of the first two stages. -/
theorem position_isSome_iff (h : d.Grounded tokens) :
    d.position.isSome = true ↔ d.fault.kind = .lexical ∨ d.fault.kind = .grammatical := by
  cases h with
  | placed _ hkind => exact ⟨fun _ => hkind, fun _ => rfl⟩
  | semantic hrule =>
    obtain ⟨hlexical, hgrammatical, -⟩ := Fault.kind_of_isSemantic hrule
    exact ⟨nofun, fun hkind => (hkind.elim hlexical hgrammatical).elim⟩

/-- The place of a diagnostic is that of a token. -/
theorem exists_token (h : d.Grounded tokens) {place : Position} (hplace : d.position = some place) :
    ∃ t ∈ tokens, t.position = place := by
  cases h with
  | placed ht _ => exact ⟨_, ht, Option.some.inj hplace⟩
  | semantic _ => cases hplace

/-- No diagnostic is about leaving the global scope. -/
theorem fault_ne_scopeUnderflow (h : d.Grounded tokens) : d.fault ≠ .scopeUnderflow := by
  rintro hfault
  cases h with
  | placed _ hkind =>
    obtain rfl : _ = Fault.scopeUnderflow := hfault
    exact hkind.elim nofun nofun
  | semantic hrule => exact (Fault.kind_of_isSemantic hrule).2.2 hfault

end Diagnostic.Grounded

/-! ## Parsing -/

/-- Without tokens there is a program, so wherever parsing fails the input ends at a token. -/
theorem Cursor.places_ofTokens {tokens : List Token} {file : String} (hne : tokens ≠ [])
    {place : Position} (h : place ∈ (Cursor.ofTokens tokens file).places) :
    ∃ t ∈ tokens, t.position = place := by
  rw [Cursor.places, List.mem_cons] at h
  obtain rfl | h := h
  · have hlast := List.getLast?_eq_some_getLast hne
    refine ⟨tokens.getLast hne, List.getLast_mem hne, ?_⟩
    rw [Cursor.ofTokens, hlast]
    rfl
  · exact List.mem_map.1 h

theorem parseAll_nil (last : Position) : parseAll ⟨[], last⟩ = .ok ⟨[]⟩ := rfl

/-- A parser blames a token with its place, and only for a fault of the grammar. -/
theorem parseAll_grounded {tokens : List Token} {file : String} {d : Diagnostic}
    (h : parseAll (.ofTokens tokens file) = .error d) :
    d.fault.kind = .grammatical ∧ d.Grounded tokens := by
  -- No tokens are a program, so a rejected list has a token to blame.
  have hne : tokens ≠ [] := by
    rintro rfl
    cases (parseAll_nil _).symm.trans h
  obtain ⟨⟨r, stop⟩, hparse⟩ : ∃ out, Nonterminal.stmts.parse (.ofTokens tokens file) = out :=
    ⟨_, rfl⟩
  rw [parseAll, hparse] at h
  cases r with
  | error d' =>
    cases h
    obtain ⟨fault, place, hplace, rfl, hkind⟩ := (Nonterminal.concerns_of_parse hparse).placed
    obtain ⟨t, ht, rfl⟩ := Cursor.places_ofTokens hne hplace
    exact ⟨hkind, .placed ht (.inr hkind)⟩
  | ok body =>
    obtain ⟨ts, hc, -⟩ := Nonterminal.stmts_parse_ok hparse
    obtain rfl : tokens = ts ++ stop.rest := congrArg Cursor.rest hc
    obtain ⟨_ | ⟨t, rest⟩, last⟩ := stop
    · cases h
    · -- The first token behind the statements is blamed.
      cases h
      exact ⟨rfl, .placed (List.mem_append_right ts (.head _)) (.inr rfl)⟩

/-! ## All stages -/

/-- The first token of an unknown kind is blamed before anything is parsed. -/
theorem checkSource_of_unknown {source file : String} {t : Token}
    (h : (tokenize source file).find? (·.kind == .unknown) = some t) :
    checkSource source file = .error (.placed (.unrecognisedToken t.value) t.position) := by
  unfold checkSource analyse parseProgram
  rw [h]
  rfl

/-- Where no token is unknown, a fault is one of parsing or of the rules. -/
theorem checkSource_grounded {source file : String} {d : Diagnostic}
    (hknown : (tokenize source file).find? (·.kind == .unknown) = none)
    (h : checkSource source file = .error d) :
    d.fault.kind ≠ .lexical ∧ d.Grounded (tokenize source file) := by
  have hstages := checkSource_stages source file
  rw [h] at hstages
  obtain hparse | ⟨program, fault, hcheck, rfl⟩ := hstages
  · unfold parseProgram at hparse
    rw [hknown] at hparse
    obtain ⟨hkind, hgrounded⟩ := parseAll_grounded hparse
    exact ⟨hkind ▸ nofun, hgrounded⟩
  · have hrule := program.check_semantic fault hcheck
    exact ⟨(Fault.kind_of_isSemantic hrule).1, .semantic hrule⟩

/-- All ways in which a text can be rejected. -/
theorem checkSource_error_cases {source file : String} {d : Diagnostic}
    (h : checkSource source file = .error d) :
    (∃ t ∈ tokenize source file,
        t.kind = .unknown ∧ d = .placed (.unrecognisedToken t.value) t.position) ∨
      (∃ t ∈ tokenize source file, d = .placed (.trailingTokens t.value) t.position) ∨
      d.Concerns (.ofTokens (tokenize source file) file) ∨
      ∃ fault : Fault, fault.isSemantic = true ∧ d = .semantic fault := by
  have hstages := checkSource_stages source file
  rw [h] at hstages
  obtain hparse | ⟨program, fault, hcheck, rfl⟩ := hstages
  · obtain hunknown | htrailing | hconcerns := parseProgram_error_cases hparse
    · exact .inl hunknown
    · exact .inr (.inl htrailing)
    · exact .inr (.inr (.inl hconcerns))
  · exact .inr (.inr (.inr ⟨fault, program.check_semantic fault hcheck, rfl⟩))

theorem exists_unknown_iff {tokens : List Token} :
    (tokens.find? (·.kind == .unknown)).isSome = true ↔ ∃ t ∈ tokens, t.kind = .unknown := by
  simp only [List.find?_isSome, beq_iff_eq]

/-- **Stages**: a diagnostic has a place if and only if it is lexical or grammatical, and that is
the place of a token. It is lexical if and only if there is an unknown token, and then it names the
first one; no check attempts to leave the global scope. -/
theorem checkSource_blames_stage (source file : String) :
    match checkSource source file with
    | .error d =>
      (d.position.isSome = true ↔ d.fault.kind = .lexical ∨ d.fault.kind = .grammatical) ∧
      (∀ place, d.position = some place → ∃ t ∈ tokenize source file, t.position = place) ∧
      (d.fault.kind = .lexical ↔ ∃ t ∈ tokenize source file, t.kind = .unknown) ∧
      (∀ t, (tokenize source file).find? (·.kind == .unknown) = some t →
        d = .placed (.unrecognisedToken t.value) t.position) ∧
      d.fault ≠ .scopeUnderflow
    | .ok _ => ∀ t ∈ tokenize source file, t.kind ≠ .unknown := by
  rw [← exists_unknown_iff]
  cases hknown : (tokenize source file).find? (·.kind == .unknown) with
  | some t =>
    rw [checkSource_of_unknown hknown]
    have hgrounded : (Diagnostic.placed (.unrecognisedToken t.value) t.position).Grounded
        (tokenize source file) := .placed (List.mem_of_find?_eq_some hknown) (.inl rfl)
    refine ⟨hgrounded.position_isSome_iff, fun _ => hgrounded.exists_token, ?_, ?_,
      hgrounded.fault_ne_scopeUnderflow⟩
    · exact ⟨fun _ => rfl, fun _ => rfl⟩
    · rintro _ ⟨⟩
      rfl
  | none =>
    cases hrun : checkSource source file with
    | error d =>
      obtain ⟨hkind, hgrounded⟩ := checkSource_grounded hknown hrun
      exact ⟨hgrounded.position_isSome_iff, fun _ => hgrounded.exists_token,
        ⟨fun h => absurd h hkind, nofun⟩, nofun, hgrounded.fault_ne_scopeUnderflow⟩
    | ok program =>
      intro t ht hunknown
      exact List.find?_eq_none.1 hknown t ht (beq_iff_eq.2 hunknown)

end FrontEnd
