import FrontEnd.Parser.Grammar

/-!
# Successful runs of parsers

Two readings of what a parser does when it succeeds, with rules for the ways in which parsers are
put together.

- `Parser.Answers p R`: whatever `p` answers, the tokens it consumed are related to the answer by
  `R`. A parser only ever takes tokens off the front, so the rest of the input is what it was.
- `Parser.Accepts p ts a rest`: in front of `rest`, the tokens `ts` lead `p` to the answer `a`, and
  `rest` is left.

Both speak about every cursor below the bound of the parser. The rules therefore never mention the
bound, and a phrase has the same laws at every bound.
-/

namespace FrontEnd

namespace Parser

variable {n : Nat} {α β : Type}

/-! ## Runs of what is put together -/

/-- A sequence that succeeds has succeeded in its first part, and then in its second. -/
theorem bind_eq_ok {p : Parser n α} {f : α → Parser n β} {c stop : Cursor.Below n} {b : β}
    (h : (p >>= f) c = .ok b stop) : ∃ a mid, p c = .ok a mid ∧ f a mid = .ok b stop := by
  change EStateM.bind p f c = _ at h
  unfold EStateM.bind at h
  split at h
  · next a mid hp => exact ⟨a, mid, hp, h⟩
  · cases h

/-- A sequence fails in its first part, or in its second where the first has ended. -/
theorem bind_eq_error {p : Parser n α} {f : α → Parser n β} {c stop : Cursor.Below n}
    {d : Diagnostic} (h : (p >>= f) c = .error d stop) :
    p c = .error d stop ∨ ∃ a mid, p c = .ok a mid ∧ f a mid = .error d stop := by
  change EStateM.bind p f c = _ at h
  unfold EStateM.bind at h
  split at h
  · next a mid hp => exact .inr ⟨a, mid, hp, h⟩
  · next d' mid hp =>
    cases h
    exact .inl hp

/-- Behind a first part that succeeds, a sequence ends as its second part does. -/
theorem bind_eq_ok_of {p : Parser n α} {f : α → Parser n β} {c mid : Cursor.Below n} {a : α}
    {r : EStateM.Result Diagnostic (Cursor.Below n) β} (hp : p c = .ok a mid)
    (hf : f a mid = r) : (p >>= f) c = r := by
  show EStateM.bind p f c = r
  unfold EStateM.bind
  rw [hp]
  exact hf

/-- A first part that fails ends the sequence. -/
theorem bind_eq_error_of {p : Parser n α} {f : α → Parser n β} {c stop : Cursor.Below n}
    {d : Diagnostic} (hp : p c = .error d stop) : (p >>= f) c = .error d stop := by
  show EStateM.bind p f c = _
  unfold EStateM.bind
  rw [hp]

/-! ## The branch by the lookahead -/

section

variable {choose : Token → Option (Parser n α)} {otherwise : Parser (n + 1) α} {t : Token}
  {ts : List Token} {last : Position}

/-- A branch that its lookahead opens goes on behind that token. -/
theorem branch_cons_some {p : Parser n α} (hchoose : choose t = some p)
    (h : (⟨t :: ts, last⟩ : Cursor).rest.length < n + 1) :
    branch choose otherwise ⟨⟨t :: ts, last⟩, h⟩ =
      raise (p ⟨⟨ts, last⟩, Nat.lt_of_succ_lt_succ h⟩) := by
  simp only [branch]
  split
  · next q hq =>
    cases hchoose.symm.trans hq
    rfl
  · next hnone => cases hchoose.symm.trans hnone

/-- A branch that its lookahead does not open takes the other way, and consumes nothing. -/
theorem branch_cons_none (hchoose : choose t = none)
    (h : (⟨t :: ts, last⟩ : Cursor).rest.length < n + 1) :
    branch choose otherwise ⟨⟨t :: ts, last⟩, h⟩ = otherwise ⟨⟨t :: ts, last⟩, h⟩ := by
  simp only [branch]
  split
  · next q hq => cases hchoose.symm.trans hq
  · rfl

end

/-- Raising the bound of an answer leaves the answer and its place. -/
theorem raise_eq_ok {r : EStateM.Result Diagnostic (Cursor.Below n) α} {a : α}
    {c : Cursor.Below (n + 1)} (h : raise r = .ok a c) :
    ∃ stop, r = .ok a stop ∧ c = ⟨stop.1, Nat.lt_succ_of_lt stop.2⟩ := by
  cases r with
  | ok b stop =>
    cases h
    exact ⟨stop, rfl, rfl⟩
  | error d stop => cases h

/-- Raising the bound of a fault leaves the fault and its place. -/
theorem raise_eq_error {r : EStateM.Result Diagnostic (Cursor.Below n) α} {d : Diagnostic}
    {c : Cursor.Below (n + 1)} (h : raise r = .error d c) :
    ∃ stop, r = .error d stop ∧ c = ⟨stop.1, Nat.lt_succ_of_lt stop.2⟩ := by
  cases r with
  | ok b stop => cases h
  | error d' stop =>
    cases h
    exact ⟨stop, rfl, rfl⟩

/-- The kind of the first token. -/
def kindAhead (ts : List Token) : Option TokenKind := ts.head?.map Token.kind

@[simp] theorem kindAhead_nil : kindAhead [] = none := rfl

@[simp] theorem kindAhead_cons (t : Token) (ts : List Token) :
    kindAhead (t :: ts) = some t.kind := rfl

/-- The test of the lookahead compares its kind. -/
theorem isAt_eq (ts : List Token) (last : Position) (kind : TokenKind) :
    Cursor.isAt ⟨ts, last⟩ kind = (kindAhead ts == some kind) := by
  cases ts <;> rfl

/-- In front of the kind asked for, the first way is taken. -/
theorem ifAt_pos {kind : TokenKind} {p q : Parser n α} {c : Cursor.Below n}
    (h : kindAhead c.1.rest = some kind) :
    (do if ← isAt kind then p else q : Parser n α) c = p c := by
  show (if Cursor.isAt c.1 kind = true then p else q) c = p c
  rw [isAt_eq, h, if_pos (beq_self_eq_true _)]

/-- In front of any other kind, or at the end, the second way is taken. -/
theorem ifAt_neg {kind : TokenKind} {p q : Parser n α} {c : Cursor.Below n}
    (h : kindAhead c.1.rest ≠ some kind) :
    (do if ← isAt kind then p else q : Parser n α) c = q c := by
  show (if Cursor.isAt c.1 kind = true then p else q) c = q c
  rw [isAt_eq, if_neg fun heq => h (eq_of_beq heq)]

/-! ## What an answer says about the tokens consumed -/

/-- Answers of `p` are related by `R` to the tokens that were consumed for them. -/
def Answers (p : Parser n α) (R : α → List Token → Prop) : Prop :=
  ∀ c a c', p c = .ok a c' → ∃ ts, c.1 = ⟨ts ++ c'.1.rest, c'.1.last⟩ ∧ R a ts

/-- An answer says less where less is asked. -/
theorem Answers.mono {p : Parser n α} {R S : α → List Token → Prop} (hp : p.Answers R)
    (h : ∀ a ts, R a ts → S a ts) : p.Answers S := by
  intro c a c' hc
  obtain ⟨ts, heq, hR⟩ := hp c a c' hc
  exact ⟨ts, heq, h a ts hR⟩

/-- A production that consumes nothing answers for no tokens. -/
theorem Answers.pure {a : α} {R : α → List Token → Prop} (h : R a []) :
    (pure a : Parser n α).Answers R := by
  intro c b c' hc
  cases hc
  exact ⟨[], rfl, h⟩

/-- A fault is no answer, so it says anything. -/
theorem Answers.throw {d : Diagnostic} {R : α → List Token → Prop} :
    (throw d : Parser n α).Answers R := by
  intro c b c' hc
  cases hc

theorem Answers.unexpected {expected : String} {R : α → List Token → Prop} :
    (unexpected expected : Parser n α).Answers R := by
  intro c b c' hc
  cases hc

/-- What `p` consumes stands before what the rest consumes. -/
theorem Answers.bind {p : Parser n α} {f : α → Parser n β} {S : α → List Token → Prop}
    {R : β → List Token → Prop} (hp : p.Answers S)
    (hf : ∀ a us, S a us → (f a).Answers fun b vs => R b (us ++ vs)) : (p >>= f).Answers R := by
  intro c b c' hc
  obtain ⟨a, mid, hmid, hc⟩ := bind_eq_ok hc
  obtain ⟨us, hc₁, hS⟩ := hp c a mid hmid
  obtain ⟨vs, hc₂, hR⟩ := hf a us hS mid b c' hc
  refine ⟨us ++ vs, ?_, hR⟩
  rw [hc₁, hc₂, List.append_assoc]

/-- An expected token is the one consumed. -/
theorem Answers.expect {kind : TokenKind} {R : Token → List Token → Prop}
    (h : ∀ t, t.kind = kind → R t [t]) : (expect kind : Parser n Token).Answers R := by
  rintro ⟨⟨ts, last⟩, hlt⟩ a c' hc
  cases ts with
  | nil => cases hc
  | cons t ts =>
    simp only [Parser.expect] at hc
    split at hc
    · next hkind =>
      cases hc
      exact ⟨[a], rfl, h a hkind⟩
    · cases hc

/-- Looking at the cursor consumes nothing. -/
theorem Answers.cursor_bind {f : Cursor → Parser n β} {R : β → List Token → Prop}
    (hf : ∀ c, (f c).Answers R) : (cursor >>= f).Answers R := by
  intro c b c' hc
  exact hf c.1 c b c' hc

/-- A test of the lookahead consumes nothing. -/
theorem Answers.isAt_bind {kind : TokenKind} {f : Bool → Parser n β} {R : β → List Token → Prop}
    (hf : ∀ b, (f b).Answers R) : (isAt kind >>= f).Answers R := by
  intro c b c' hc
  exact hf (c.1.isAt kind) c b c' hc

/-- A choice by the lookahead consumes nothing of its own. -/
theorem Answers.ifAt {kind : TokenKind} {p q : Parser n α} {R : α → List Token → Prop}
    (hp : p.Answers R) (hq : q.Answers R) :
    (do if ← isAt kind then p else q : Parser n α).Answers R := by
  refine .isAt_bind fun b => ?_
  cases b with
  | false => exact hq
  | true => exact hp

/-- A choice by a condition answers what both ways answer. -/
theorem Answers.ite {P : Prop} [Decidable P] {p q : Parser n α} {R : α → List Token → Prop}
    (hp : p.Answers R) (hq : q.Answers R) : (if P then p else q).Answers R := by
  split
  · exact hp
  · exact hq

/-- A branch answers for its opening token and what follows, or what the other way answers. -/
theorem Answers.branch {choose : Token → Option (Parser n α)} {otherwise : Parser (n + 1) α}
    {R : α → List Token → Prop}
    (hp : ∀ t p, choose t = some p → p.Answers fun a ts => R a (t :: ts))
    (hq : otherwise.Answers R) : (branch choose otherwise).Answers R := by
  rintro ⟨⟨ts, last⟩, hlt⟩ a c' hc
  cases ts with
  | nil => exact hq _ a c' hc
  | cons t ts =>
    cases hchoose : choose t with
    | none =>
      rw [branch_cons_none hchoose] at hc
      exact hq _ a c' hc
    | some p =>
      rw [branch_cons_some hchoose] at hc
      obtain ⟨stop, hrun, rfl⟩ := raise_eq_ok hc
      obtain ⟨us, heq, hR⟩ := hp t p hchoose _ a stop hrun
      refine ⟨t :: us, ?_, hR⟩
      exact congrArg (fun c : Cursor => { c with rest := t :: c.rest }) heq

/-- What an answer says holds of the tokens between start and end of the run. -/
theorem Answers.run {p : ∀ n, Parser n α} {R : α → List Token → Prop}
    (hp : ∀ n, (p n).Answers R) {c stop : Cursor} {a : α} (h : run p c = (.ok a, stop)) :
    ∃ ts, c = ⟨ts ++ stop.rest, stop.last⟩ ∧ R a ts := by
  unfold Parser.run at h
  split at h
  · next b c' hrun =>
    cases h
    exact hp _ _ _ _ hrun
  · cases h

/-! ## What tokens lead to an answer -/

/-- In front of `rest`, the tokens `ts` lead `p` to the answer `a`. -/
def Accepts (p : Parser n α) (ts : List Token) (a : α) (rest : List Token) : Prop :=
  ∀ last h, ∃ h', p ⟨⟨ts ++ rest, last⟩, h⟩ = .ok a ⟨⟨rest, last⟩, h'⟩

theorem Accepts.pure {a : α} {rest : List Token} : (pure a : Parser n α).Accepts [] a rest :=
  fun _ h => ⟨h, rfl⟩

/-- Two productions in sequence accept what each accepts, one behind the other. -/
theorem Accepts.bind {p : Parser n α} {f : α → Parser n β} {ts us rest : List Token} {a : α}
    {b : β} (hp : p.Accepts ts a (us ++ rest)) (hf : (f a).Accepts us b rest) :
    (p >>= f).Accepts (ts ++ us) b rest := by
  intro last h
  rw [List.append_assoc] at h
  obtain ⟨h₁, hp⟩ := hp last h
  obtain ⟨h₂, hf⟩ := hf last h₁
  refine ⟨h₂, ?_⟩
  simp only [List.append_assoc]
  exact bind_eq_ok_of hp hf

/-- A second production may accept no tokens. -/
theorem Accepts.bind_nil {p : Parser n α} {f : α → Parser n β} {ts rest : List Token} {a : α}
    {b : β} (hp : p.Accepts ts a rest) (hf : (f a).Accepts [] b rest) :
    (p >>= f).Accepts ts b rest := by
  rw [← List.append_nil ts]
  exact .bind hp hf

/-- Making something of an answer consumes nothing. -/
theorem Accepts.map {p : Parser n α} {f : α → β} {ts rest : List Token} {a : α}
    (hp : p.Accepts ts a rest) :
    (do return f (← p) : Parser n β).Accepts ts (f a) rest :=
  hp.bind_nil .pure

/-- An expected token may stand in front. -/
theorem Accepts.expect_bind {kind : TokenKind} {f : Token → Parser n β} {t : Token}
    {ts rest : List Token} {b : β} (ht : t.kind = kind) (hf : (f t).Accepts ts b rest) :
    (expect kind >>= f).Accepts (t :: ts) b rest := by
  have hexpect : (expect kind : Parser n Token).Accepts [t] t (ts ++ rest) :=
    fun _ h => ⟨Nat.lt_of_succ_lt h, if_pos ht⟩
  exact hexpect.bind hf

/-- A token that is skipped may stand in front. -/
theorem Accepts.skip_bind {kind : TokenKind} {f : Unit → Parser n β} {t : Token}
    {ts rest : List Token} {b : β} (ht : t.kind = kind) (hf : (f ()).Accepts ts b rest) :
    (skip kind >>= f).Accepts (t :: ts) b rest := by
  have hskip : (skip kind : Parser n Unit).Accepts [t] () (ts ++ rest) := .expect_bind ht .pure
  exact hskip.bind hf

/-- Reading the place consumes nothing. -/
theorem Accepts.cursor_bind {f : Cursor → Parser n β} {ts rest : List Token} {b : β}
    (hf : ∀ last, (f ⟨ts ++ rest, last⟩).Accepts ts b rest) :
    (cursor >>= f).Accepts ts b rest :=
  fun last h => hf last last h

/-- In front of the kind asked for, what the first way accepts is accepted. -/
theorem Accepts.ifAt_pos {kind : TokenKind} {p q : Parser n α} {ts rest : List Token} {a : α}
    (hkind : kindAhead (ts ++ rest) = some kind) (hp : p.Accepts ts a rest) :
    (do if ← isAt kind then p else q : Parser n α).Accepts ts a rest := by
  intro last h
  obtain ⟨h', hrun⟩ := hp last h
  exact ⟨h', (Parser.ifAt_pos hkind).trans hrun⟩

/-- In front of another kind, what the second way accepts is accepted. -/
theorem Accepts.ifAt_neg {kind : TokenKind} {p q : Parser n α} {ts rest : List Token} {a : α}
    (hkind : kindAhead (ts ++ rest) ≠ some kind) (hq : q.Accepts ts a rest) :
    (do if ← isAt kind then p else q : Parser n α).Accepts ts a rest := by
  intro last h
  obtain ⟨h', hrun⟩ := hq last h
  exact ⟨h', (Parser.ifAt_neg hkind).trans hrun⟩

/-- A branch accepts a token that opens it, with what its production accepts. -/
theorem Accepts.branch_some {choose : Token → Option (Parser n α)}
    {otherwise : Parser (n + 1) α} {p : Parser n α} {t : Token} {ts rest : List Token} {a : α}
    (hchoose : choose t = some p) (hp : p.Accepts ts a rest) :
    (branch choose otherwise).Accepts (t :: ts) a rest := by
  intro last h
  obtain ⟨h', hrun⟩ := hp last (Nat.lt_of_succ_lt_succ h)
  refine ⟨Nat.lt_succ_of_lt h', (branch_cons_some hchoose h).trans ?_⟩
  exact congrArg raise hrun

/-- Where no token opens the branch, it accepts what the other way accepts. -/
theorem Accepts.branch_none {choose : Token → Option (Parser n α)}
    {otherwise : Parser (n + 1) α} {ts rest : List Token} {a : α}
    (hchoose : ∀ t us, ts ++ rest = t :: us → choose t = none)
    (hq : otherwise.Accepts ts a rest) : (branch choose otherwise).Accepts ts a rest := by
  intro last h
  obtain ⟨h', hrun⟩ := hq last h
  refine ⟨h', Eq.trans ?_ hrun⟩
  -- Whether there is a token at all shows only in the input as a whole.
  revert h hchoose
  generalize ts ++ rest = input
  intro hchoose h _
  cases input with
  | nil => rfl
  | cons t us => exact branch_cons_none (hchoose t us rfl) h

/-- A branch by one kind accepts a token of this kind and what follows. -/
theorem Accepts.branchAt_pos {kind : TokenKind} {next : Token → Parser n α}
    {otherwise : Parser (n + 1) α} {t : Token} {ts rest : List Token} {a : α}
    (ht : t.kind = kind) (hp : (next t).Accepts ts a rest) :
    (branchAt kind next otherwise).Accepts (t :: ts) a rest :=
  .branch_some (if_pos ht) hp

/-- In front of another kind, it accepts what the other way accepts. -/
theorem Accepts.branchAt_neg {kind : TokenKind} {next : Token → Parser n α}
    {otherwise : Parser (n + 1) α} {ts rest : List Token} {a : α}
    (hkind : kindAhead (ts ++ rest) ≠ some kind) (hq : otherwise.Accepts ts a rest) :
    (branchAt kind next otherwise).Accepts ts a rest := by
  refine .branch_none (fun t us heq => if_neg fun ht => hkind ?_) hq
  rw [heq, kindAhead_cons, ht]

/-- A production behind a token accepts the token and what it accepts itself. -/
theorem Accepts.after {kind : TokenKind} {next : Token → Parser n α} {t : Token}
    {ts rest : List Token} {a : α} (ht : t.kind = kind) (hp : (next t).Accepts ts a rest) :
    (after kind next).Accepts (t :: ts) a rest :=
  .branchAt_pos ht hp

/-- A list up to a closing token may be missing. -/
theorem Accepts.upTo_nil {close : TokenKind} {list : Parser n (List α)} {rest : List Token}
    (hkind : kindAhead rest = some close) : (upTo close list).Accepts [] [] rest :=
  .ifAt_pos hkind .pure

/-- A list up to a closing token is accepted where it does not begin with that token. -/
theorem Accepts.upTo {close : TokenKind} {list : Parser n (List α)} {ts rest : List Token}
    {as : List α} (hkind : kindAhead (ts ++ rest) ≠ some close)
    (hlist : list.Accepts ts as rest) : (upTo close list).Accepts ts as rest :=
  .ifAt_neg hkind hlist

/-- Tokens that are accepted at every bound make the run succeed, whatever came before. -/
theorem Accepts.run {p : ∀ n, Parser n α} {ts rest : List Token} {a : α}
    (hp : ∀ n, (p n).Accepts ts a rest) (last : Position) :
    run p ⟨ts ++ rest, last⟩ = (.ok a, ⟨rest, last⟩) := by
  obtain ⟨h', hok⟩ := hp ((ts ++ rest).length + 1) last (Nat.lt_succ_self _)
  unfold Parser.run
  split
  · next a stop hrun =>
    cases hrun.symm.trans hok
    rfl
  · next d stop hrun => cases hrun.symm.trans hok

end Parser

end FrontEnd
