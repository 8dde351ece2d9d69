import FrontEnd.Proofs.Parsing.Success

/-!
# Steady parsers

A parser that never goes back and decides by the lookahead does the same in front of any input that
begins with the tokens it consumes and the one behind them.

- `Parser.Rejects p ts rest`: in front of `rest`, the tokens `ts` lead `p` to a fault, and `rest` is
  left; the counterpart of `Parser.Accepts`.
- `Parser.Steady p q`: how `p` ends settles how `q` ends in front of the tokens that `p` consumes
  and the one behind them. The two are the same parser at two bounds. A choice that looks further
  ahead is steady all the same if the parser that is chosen consumes what was looked at
  (`Steady.of_choice`).
- `Parser.Takes p kinds`: in front of tokens of these kinds `p` consumes them all, however it ends.
-/

namespace FrontEnd

namespace Parser

variable {n m : Nat} {α β : Type}

/-! ## What tokens lead to a fault -/

/-- In front of `rest`, the tokens `ts` lead `p` to a fault, and `rest` is left. -/
def Rejects (p : Parser n α) (ts rest : List Token) : Prop :=
  ∀ last h, ∃ d h', p ⟨⟨ts ++ rest, last⟩, h⟩ = .error d ⟨⟨rest, last⟩, h'⟩

/-- A fault needs no tokens. -/
theorem Rejects.throw {d : Diagnostic} {rest : List Token} :
    (throw d : Parser n α).Rejects [] rest :=
  fun _ h => ⟨d, h, rfl⟩

/-- Blaming the lookahead consumes nothing. -/
theorem Rejects.unexpected {expected : String} {rest : List Token} :
    (unexpected expected : Parser n α).Rejects [] rest :=
  fun _ h => ⟨_, h, rfl⟩

/-- A token is rejected in front of any other kind, and at the end. -/
theorem Rejects.expect {kind : TokenKind} {rest : List Token} (h : kindAhead rest ≠ some kind) :
    (expect kind : Parser n Token).Rejects [] rest := by
  intro last hlt
  cases rest with
  | nil => exact ⟨_, hlt, rfl⟩
  | cons t ts =>
    have ht : t.kind ≠ kind := fun heq => h (congrArg some heq)
    exact ⟨_, hlt, if_neg ht⟩

/-- A branch rejects its opening token with what the production behind it rejects. -/
theorem Rejects.branch_some {choose : Token → Option (Parser n α)}
    {otherwise : Parser (n + 1) α} {p : Parser n α} {t : Token} {ts rest : List Token}
    (hchoose : choose t = some p) (hp : p.Rejects ts rest) :
    (branch choose otherwise).Rejects (t :: ts) rest := by
  intro last h
  obtain ⟨d, h', hrun⟩ := hp last (Nat.lt_of_succ_lt_succ h)
  refine ⟨d, Nat.lt_succ_of_lt h', (branch_cons_some hchoose h).trans ?_⟩
  exact congrArg raise hrun

/-- A fault ends what is put together. -/
theorem Rejects.bind_left {p : Parser n α} {f : α → Parser n β} {ts rest : List Token}
    (hp : p.Rejects ts rest) : (p >>= f).Rejects ts rest := by
  intro last h
  obtain ⟨d, h', hrun⟩ := hp last h
  exact ⟨d, h', bind_eq_error_of hrun⟩

/-- A sequence rejects what its first part accepts with what its second part rejects. -/
theorem Rejects.bind {p : Parser n α} {f : α → Parser n β} {ts us rest : List Token} {a : α}
    (hp : p.Accepts ts a (us ++ rest)) (hf : (f a).Rejects us rest) :
    (p >>= f).Rejects (ts ++ us) rest := by
  intro last h
  rw [List.append_assoc] at h
  obtain ⟨h₁, hp⟩ := hp last h
  obtain ⟨d, h₂, hf⟩ := hf last h₁
  refine ⟨d, h₂, ?_⟩
  simp only [List.append_assoc]
  exact bind_eq_ok_of hp hf

/-- Reading the place rejects nothing by itself. -/
theorem Rejects.cursor_bind {f : Cursor → Parser n β} {ts rest : List Token}
    (hf : ∀ last, (f ⟨ts ++ rest, last⟩).Rejects ts rest) : (cursor >>= f).Rejects ts rest :=
  fun last h => hf last last h

/-! ## Steadiness -/

/-- The cursor where a run ends, with an answer or without. -/
def stop (p : Parser n α) (c : Cursor.Below n) : Cursor :=
  match p c with
  | .ok _ s | .error _ s => s.1

/-- Runs with the same result stop at the same place. -/
theorem stop_congr {p q : Parser n α} {c : Cursor.Below n} (h : p c = q c) :
    p.stop c = q.stop c := by
  unfold stop
  rw [h]

/-- Where `p` ends, `q` ends in the same way in front of any input that begins with the tokens that
`p` consumes and the one behind them. -/
structure Steady (p : Parser n α) (q : Parser m α) : Prop where
  ok : ∀ {c a s}, p c = .ok a s → ∃ ts, c.1 = ⟨ts ++ s.1.rest, s.1.last⟩ ∧
    ∀ rest, rest.head? = s.1.rest.head? → q.Accepts ts a rest
  error : ∀ {c d s}, p c = .error d s → ∃ ts, c.1 = ⟨ts ++ s.1.rest, s.1.last⟩ ∧
    ∀ rest, rest.head? = s.1.rest.head? → q.Rejects ts rest

/-- The token at the front depends on what follows only if none stands before it. -/
theorem head?_append_congr {rest others : List Token} (h : rest.head? = others.head?)
    (ts : List Token) : (ts ++ rest).head? = (ts ++ others).head? := by
  rw [List.head?_append, List.head?_append, h]

/-- The kinds up to the one behind the tokens consumed. -/
theorem kind?_append_congr {rest others : List Token} (h : rest.head? = others.head?)
    {ts : List Token} {i : Nat} (hi : i ≤ ts.length) (last last' : Position) :
    Cursor.kind? ⟨ts ++ rest, last⟩ i = Cursor.kind? ⟨ts ++ others, last'⟩ i := by
  unfold Cursor.kind?
  obtain hlt | rfl := Nat.lt_or_eq_of_le hi
  · rw [List.getElem?_append_left hlt, List.getElem?_append_left hlt]
  · rw [List.getElem?_append_right (Nat.le_refl _), List.getElem?_append_right (Nat.le_refl _),
      Nat.sub_self, ← List.head?_eq_getElem?, ← List.head?_eq_getElem?, h]

namespace Steady

variable {p : Parser n α} {q : Parser m α}

/-- A steady parser only takes tokens off the front. -/
theorem exists_consumed (hp : p.Steady q) (c : Cursor.Below n) :
    ∃ ts, c.1 = ⟨ts ++ (p.stop c).rest, (p.stop c).last⟩ := by
  unfold stop
  cases hrun : p c with
  | ok a s =>
    obtain ⟨ts, hc, -⟩ := hp.ok hrun
    exact ⟨ts, hc⟩
  | error d s =>
    obtain ⟨ts, hc, -⟩ := hp.error hrun
    exact ⟨ts, hc⟩

/-- What consumes nothing is steady. -/
theorem pure {a : α} : (pure a : Parser n α).Steady (pure a : Parser m α) where
  ok h := by
    cases h
    exact ⟨[], rfl, fun _ _ => .pure⟩
  error h := by cases h

/-- A fault is steady, wherever it is raised. -/
theorem throw {d : Diagnostic} : (throw d : Parser n α).Steady (throw d : Parser m α) where
  ok h := by cases h
  error h := by
    cases h
    exact ⟨[], rfl, fun _ _ => .throw⟩

/-- Blaming the lookahead is steady: it is blamed in front of any input. -/
theorem unexpected {expected : String} :
    (unexpected expected : Parser n α).Steady (Parser.unexpected expected : Parser m α) where
  ok h := by cases h
  error h := by
    cases h
    exact ⟨[], rfl, fun _ _ => .unexpected⟩

/-- An expected token is steady, since the token behind what was consumed decides. -/
theorem expect {kind : TokenKind} :
    (expect kind : Parser n Token).Steady (Parser.expect kind : Parser m Token) where
  ok {c a s} h := by
    obtain ⟨⟨_ | ⟨t, ts⟩, last⟩, hlt⟩ := c
    · cases h
    · simp only [Parser.expect] at h
      split at h
      · next hkind =>
        cases h
        exact ⟨[a], rfl, fun _ _ => fun _ h => ⟨Nat.lt_of_succ_lt h, if_pos hkind⟩⟩
      · cases h
  error {c d s} h := by
    obtain ⟨⟨input, last⟩, hlt⟩ := c
    -- A token that fits would have been consumed.
    have hkind : kindAhead input ≠ some kind := by
      rintro hkind
      obtain _ | ⟨t, ts⟩ := input
      · cases hkind
      · simp only [Parser.expect, if_pos (Option.some.inj hkind)] at h
        cases h
    have hs : (⟨input, last⟩ : Cursor) = ⟨s.1.rest, s.1.last⟩ := by
      obtain _ | ⟨t, ts⟩ := input
      · cases h
        rfl
      · simp only [Parser.expect, if_neg fun ht => hkind (congrArg some ht)] at h
        cases h
        rfl
    obtain ⟨rfl, rfl⟩ := Cursor.mk.inj hs
    refine ⟨[], rfl, fun rest hrest => .expect ?_⟩
    rwa [kindAhead, hrest]

/-- Only what follows an answer that was given has to be steady. -/
theorem bind {f : α → Parser n β} {g : α → Parser m β} (hp : p.Steady q)
    (hf : ∀ {c a s}, p c = .ok a s → (f a).Steady (g a)) : (p >>= f).Steady (q >>= g) where
  ok {c b s} h := by
    obtain ⟨a, mid, hpc, hfa⟩ := bind_eq_ok h
    -- The first part stops in front of what the second consumes, or of what stands behind both.
    obtain ⟨us, hc, hus⟩ := hp.ok hpc
    obtain ⟨vs, hmid, hvs⟩ := (hf hpc).ok hfa
    refine ⟨us ++ vs, ?_, fun rest hrest => .bind (hus (vs ++ rest) ?_) (hvs rest hrest)⟩
    · rw [hc, hmid, List.append_assoc]
    · rw [hmid]
      exact head?_append_congr hrest vs
  error {c d s} h := by
    obtain hpc | ⟨a, mid, hpc, hfa⟩ := bind_eq_error h
    · obtain ⟨us, hc, hus⟩ := hp.error hpc
      exact ⟨us, hc, fun rest hrest => (hus rest hrest).bind_left⟩
    · obtain ⟨us, hc, hus⟩ := hp.ok hpc
      obtain ⟨vs, hmid, hvs⟩ := (hf hpc).error hfa
      refine ⟨us ++ vs, ?_, fun rest hrest => .bind (hus (vs ++ rest) ?_) (hvs rest hrest)⟩
      · rw [hc, hmid, List.append_assoc]
      · rw [hmid]
        exact head?_append_congr hrest vs

/-- Keeping the cursor in mind for a diagnostic changes nothing else. -/
theorem cursor_bind {f : Cursor → Parser n α} {g : Cursor → Parser m α}
    (hf : ∀ c, (f c).Steady (g c))
    (hok : ∀ start other c a s, g start c = .ok a s → g other c = .ok a s)
    (herror : ∀ start other c d s, g start c = .error d s → ∃ d', g other c = .error d' s) :
    (cursor >>= f).Steady (cursor >>= g) where
  ok {c a s} h := by
    obtain ⟨ts, hc, hts⟩ := (hf c.1).ok h
    refine ⟨ts, hc, fun rest hrest => .cursor_bind fun last last' hlt => ?_⟩
    obtain ⟨hlt', hrun⟩ := hts rest hrest last' hlt
    exact ⟨hlt', hok _ _ _ _ _ hrun⟩
  error {c d s} h := by
    obtain ⟨ts, hc, hts⟩ := (hf c.1).error h
    refine ⟨ts, hc, fun rest hrest => .cursor_bind fun last last' hlt => ?_⟩
    obtain ⟨d', hlt', hrun⟩ := hts rest hrest last' hlt
    obtain ⟨d'', hrun⟩ := herror _ ⟨ts ++ rest, last⟩ _ _ _ hrun
    exact ⟨d'', hlt', hrun⟩

/-- A choice among steady parsers is steady if it is settled by what the chosen one consumes and the
token behind that. -/
theorem of_choice
    (h : ∀ c, ∃ (p' : Parser n α) (q' : Parser m α), p'.Steady q' ∧ p c = p' c ∧
      ∀ ts rest, c.1.rest = ts ++ (p'.stop c).rest → rest.head? = (p'.stop c).rest.head? →
        ∀ last h, q ⟨⟨ts ++ rest, last⟩, h⟩ = q' ⟨⟨ts ++ rest, last⟩, h⟩) : p.Steady q where
  ok {c a s} hrun := by
    obtain ⟨p', q', hp, heq, hsame⟩ := h c
    rw [heq] at hrun
    obtain ⟨ts, hc, hts⟩ := hp.ok hrun
    have hstop : p'.stop c = s.1 := by simp only [stop, hrun]
    rw [hstop] at hsame
    refine ⟨ts, hc, fun rest hrest last hlt => ?_⟩
    -- In front of these tokens the other parser makes the same choice.
    rw [hsame ts rest (congrArg Cursor.rest hc) hrest]
    exact hts rest hrest last hlt
  error {c d s} hrun := by
    obtain ⟨p', q', hp, heq, hsame⟩ := h c
    rw [heq] at hrun
    obtain ⟨ts, hc, hts⟩ := hp.error hrun
    have hstop : p'.stop c = s.1 := by simp only [stop, hrun]
    rw [hstop] at hsame
    refine ⟨ts, hc, fun rest hrest last hlt => ?_⟩
    rw [hsame ts rest (congrArg Cursor.rest hc) hrest]
    exact hts rest hrest last hlt

/-- A choice by the lookahead. -/
theorem of_lookahead
    (h : ∀ t? : Option Token, ∃ (p' : Parser n α) (q' : Parser m α), p'.Steady q' ∧
      (∀ c : Cursor.Below n, c.1.rest.head? = t? → p c = p' c) ∧
      ∀ c : Cursor.Below m, c.1.rest.head? = t? → q c = q' c) : p.Steady q := by
  refine of_choice fun c => ?_
  obtain ⟨p', q', hp, heq, hsame⟩ := h c.1.rest.head?
  refine ⟨p', q', hp, heq c rfl, fun ts rest hc hrest last hlt => hsame _ ?_⟩
  rw [hc]
  exact head?_append_congr hrest ts

/-- A choice by the kind at the lookahead is steady. -/
theorem ifAt {kind : TokenKind} {p₁ p₂ : Parser n α} {q₁ q₂ : Parser m α} (h₁ : p₁.Steady q₁)
    (h₂ : p₂.Steady q₂) :
    (do if ← isAt kind then p₁ else p₂ : Parser n α).Steady
      (do if ← isAt kind then q₁ else q₂ : Parser m α) := by
  refine of_lookahead fun t? => ?_
  by_cases hkind : t?.map Token.kind = some kind
  · refine ⟨p₁, q₁, h₁, ?_, ?_⟩
    · rintro c rfl
      exact ifAt_pos hkind
    · rintro c rfl
      exact ifAt_pos hkind
  · refine ⟨p₂, q₂, h₂, ?_, ?_⟩
    · rintro c rfl
      exact ifAt_neg hkind
    · rintro c rfl
      exact ifAt_neg hkind

/-- Whatever the lookahead is, it is consumed. -/
theorem consume (expected : String) (hp : p.Steady q) :
    (branch (fun _ => some p) (Parser.unexpected expected)).Steady
      (branch (fun _ => some q) (Parser.unexpected expected)) where
  ok {c a s} h := by
    obtain ⟨⟨_ | ⟨t, us⟩, last⟩, hlt⟩ := c
    · cases h
    · rw [branch_cons_some rfl] at h
      obtain ⟨mid, hrun, rfl⟩ := raise_eq_ok h
      obtain ⟨ts, hc, hts⟩ := hp.ok hrun
      obtain ⟨rfl, rfl⟩ := Cursor.mk.inj hc
      exact ⟨t :: ts, rfl, fun rest hrest => .branch_some rfl (hts rest hrest)⟩
  error {c d s} h := by
    obtain ⟨⟨_ | ⟨t, us⟩, last⟩, hlt⟩ := c
    · cases h
      refine ⟨[], rfl, fun rest hrest last hlt => ?_⟩
      -- Nothing is left, and the other input ends here as well.
      obtain rfl := List.head?_eq_none_iff.1 hrest
      exact ⟨_, hlt, rfl⟩
    · rw [branch_cons_some rfl] at h
      obtain ⟨mid, hrun, rfl⟩ := raise_eq_error h
      obtain ⟨ts, hc, hts⟩ := hp.error hrun
      obtain ⟨rfl, rfl⟩ := Cursor.mk.inj hc
      exact ⟨t :: ts, rfl, fun rest hrest => .branch_some rfl (hts rest hrest)⟩

/-- A branch is steady if its productions are, token by token. -/
theorem branch {choose : Token → Option (Parser n α)} {choose' : Token → Option (Parser m α)}
    {otherwise : Parser (n + 1) α} {otherwise' : Parser (m + 1) α}
    (hp : ∀ t, Option.Rel (fun p q => p.Steady q) (choose t) (choose' t))
    (hq : otherwise.Steady otherwise') :
    (branch choose otherwise).Steady (Parser.branch choose' otherwise') := by
  refine of_lookahead fun t? => ?_
  cases t? with
  | none =>
    refine ⟨otherwise, otherwise', hq, ?_, ?_⟩
    all_goals
      rintro ⟨⟨input, last⟩, hlt⟩ hinput
      obtain rfl := List.head?_eq_none_iff.1 hinput
      rfl
  | some t =>
    have ht := hp t
    generalize hchoose : choose t = p?, hchoose' : choose' t = q? at ht
    cases ht with
    | some hsteady =>
      -- Both branches are opened, so each is the parser that consumes any token and goes on.
      refine ⟨_, _, consume "" hsteady, ?_, ?_⟩
      · rintro ⟨⟨input, last⟩, hlt⟩ hinput
        obtain ⟨ts, rfl⟩ := List.head?_eq_some_iff.1 hinput
        rw [branch_cons_some hchoose, branch_cons_some rfl]
      · rintro ⟨⟨input, last⟩, hlt⟩ hinput
        obtain ⟨ts, rfl⟩ := List.head?_eq_some_iff.1 hinput
        rw [branch_cons_some hchoose', branch_cons_some rfl]
    | none =>
      refine ⟨otherwise, otherwise', hq, ?_, ?_⟩
      · rintro ⟨⟨input, last⟩, hlt⟩ hinput
        obtain ⟨ts, rfl⟩ := List.head?_eq_some_iff.1 hinput
        exact branch_cons_none hchoose hlt
      · rintro ⟨⟨input, last⟩, hlt⟩ hinput
        obtain ⟨ts, rfl⟩ := List.head?_eq_some_iff.1 hinput
        exact branch_cons_none hchoose' hlt

end Steady

/-! ## Tokens that are consumed in any case -/

/-- In front of tokens of the given kinds, these at least are consumed, however the run ends. -/
def Takes (p : Parser n α) (kinds : List TokenKind) : Prop :=
  ∀ c, kinds <+: c.1.rest.map Token.kind →
    (p.stop c).rest.length + kinds.length ≤ c.1.rest.length

/-- A steady parser consumes no fewer than no tokens. -/
theorem Steady.takes_nil {p : Parser n α} {q : Parser m α} (hp : p.Steady q) : p.Takes [] := by
  intro c _
  obtain ⟨ts, hc⟩ := hp.exists_consumed c
  rw [hc, List.length_append]
  exact Nat.le_add_left _ _

namespace Takes

variable {kinds : List TokenKind}

/-- What consumes nothing takes nothing. -/
theorem pure {a : α} : (pure a : Parser n α).Takes [] :=
  fun _ _ => Nat.le_refl _

/-- Expecting a token takes nothing for certain, for it may be another. -/
theorem expect {kind : TokenKind} : (expect kind : Parser n Token).Takes [] :=
  (Steady.expect (m := n)).takes_nil

/-- What follows may take more, but gives nothing back. -/
theorem bind {p : Parser n α} {f : α → Parser n β} (hp : p.Takes kinds)
    (hf : ∀ a, (f a).Takes []) : (p >>= f).Takes kinds := by
  intro c hkinds
  have htaken := hp c hkinds
  have hle : ((p >>= f).stop c).rest.length ≤ (p.stop c).rest.length := by
    unfold stop
    cases hrun : p c with
    | ok a mid =>
      rw [bind_eq_ok_of hrun rfl]
      exact hf a mid List.nil_prefix
    | error d mid => exact Nat.le_of_eq (by rw [bind_eq_error_of hrun])
  omega

theorem skip {kind : TokenKind} : (skip kind : Parser n Unit).Takes [] :=
  .bind .expect fun _ => .pure

/-- A choice takes what both its ways take. -/
theorem ifAt {kind : TokenKind} {p q : Parser n α} (hp : p.Takes kinds) (hq : q.Takes kinds) :
    (do if ← isAt kind then p else q : Parser n α).Takes kinds := by
  intro c hkinds
  by_cases hkind : kindAhead c.1.rest = some kind
  · rw [stop_congr (ifAt_pos hkind)]
    exact hp c hkinds
  · rw [stop_congr (ifAt_neg hkind)]
    exact hq c hkinds

/-- A branch that is opened stops where the production behind the token does. -/
theorem branch_stop {choose : Token → Option (Parser n α)} {otherwise : Parser (n + 1) α}
    {t : Token} {ts : List Token} {last : Position} {p : Parser n α} (hchoose : choose t = some p)
    (hlt : (⟨t :: ts, last⟩ : Cursor).rest.length < n + 1) :
    (Parser.branch choose otherwise).stop ⟨⟨t :: ts, last⟩, hlt⟩ =
      p.stop ⟨⟨ts, last⟩, Nat.lt_of_succ_lt_succ hlt⟩ := by
  unfold stop
  rw [branch_cons_some hchoose]
  cases p ⟨⟨ts, last⟩, Nat.lt_of_succ_lt_succ hlt⟩ <;> rfl

/-- A branch that may not be opened takes nothing for certain. -/
theorem branchAt {kind : TokenKind} {next : Token → Parser n α} {otherwise : Parser (n + 1) α}
    (hp : ∀ t, (next t).Takes []) (hq : otherwise.Takes []) :
    (branchAt kind next otherwise).Takes [] := by
  rintro ⟨⟨_ | ⟨t, ts⟩, last⟩, hlt⟩ hkinds
  · exact hq _ hkinds
  · by_cases hkind : t.kind = kind
    · have hle := hp t ⟨⟨ts, last⟩, Nat.lt_of_succ_lt_succ hlt⟩ List.nil_prefix
      unfold Parser.branchAt
      rw [branch_stop (if_pos hkind)]
      exact Nat.le_succ_of_le hle
    · unfold Parser.branchAt
      rw [stop_congr (branch_cons_none (if_neg hkind) hlt)]
      exact hq _ hkinds

/-- A branch that a kind opens for certain takes a token of that kind. -/
theorem branch {choose : Token → Option (Parser n α)} {otherwise : Parser (n + 1) α}
    {kind : TokenKind} (h : ∀ t, t.kind = kind → ∃ p, choose t = some p ∧ p.Takes kinds) :
    (branch choose otherwise).Takes (kind :: kinds) := by
  rintro ⟨⟨_ | ⟨t, ts⟩, last⟩, hlt⟩ hkinds
  · exact absurd (List.prefix_nil.1 hkinds) (List.cons_ne_nil _ _)
  · obtain ⟨hkind, hkinds⟩ := List.cons_prefix_cons.1 hkinds
    obtain ⟨p, hchoose, hp⟩ := h t hkind.symm
    have htaken := hp ⟨⟨ts, last⟩, Nat.lt_of_succ_lt_succ hlt⟩ hkinds
    rw [branch_stop hchoose]
    exact Nat.succ_le_succ htaken

/-- Behind a token of a kind, what a production takes is taken as well. -/
theorem after {kind : TokenKind} {next : Token → Parser n α}
    (h : ∀ t, (next t).Takes kinds) : (after kind next).Takes (kind :: kinds) :=
  .branch fun t ht => ⟨next t, if_pos ht, h t⟩

/-- A list that does not begin with its closing token takes what it begins with. -/
theorem upTo {kind close : TokenKind} {list : Parser n (List α)} (hclose : kind ≠ close)
    (h : list.Takes [kind]) : (upTo close list).Takes [kind] := by
  rintro ⟨⟨_ | ⟨t, ts⟩, last⟩, hlt⟩ hkinds
  · exact absurd (List.prefix_nil.1 hkinds) (List.cons_ne_nil _ _)
  · have hkind : t.kind = kind := (List.cons_prefix_cons.1 hkinds).1.symm
    have hahead : kindAhead (t :: ts) ≠ some close := by
      rw [kindAhead_cons, hkind]
      exact fun heq => hclose (Option.some.inj heq)
    have hrun : Parser.upTo close list ⟨⟨t :: ts, last⟩, hlt⟩ = list ⟨⟨t :: ts, last⟩, hlt⟩ :=
      ifAt_neg hahead
    rw [stop_congr hrun]
    exact h _ hkinds

end Takes

end Parser

end FrontEnd
