import FrontEnd.Proofs.Parsing.Steadiness

/-!
# Predictive parsers

What a parser does with input that does not fit. A parser that decides by the lookahead has to
notice a wrong token at once, and may do so only if nothing behind the token could make it right.

- `Viable R ts`: the tokens `ts` begin some that `R` relates to an answer.
- `Parser.Stalls p R`: where the lookahead makes `p` fail, the tokens before it are viable.
- `Parser.Predicts p q R`: so it is, `p` is steady, and its answers are related by `R` to the tokens
  consumed. As in steadiness, `q` is the same parser at another bound.

As for successful runs, each way in which parsers are put together has its rule.
-/

namespace FrontEnd

/-- Whether a fault is noticed only behind the tokens that it concerns, and not at the lookahead. -/
def Fault.isBelated : Fault → Bool
  | expectedCondition _ | invalidNumber _ => true
  | _ => false

/-- Tokens that can be continued to some that `R` relates to an answer. -/
def Viable {α : Type} (R : α → List Token → Prop) (ts : List Token) : Prop :=
  ∃ a us, R a (ts ++ us)

namespace Parser

variable {n m : Nat} {α β : Type}

/-! ## Faults at the lookahead -/

/-- A fault of `p` is noticed behind the tokens that it concerns, or else it blames the lookahead,
and the tokens consumed before are viable. -/
def Stalls (p : Parser n α) (R : α → List Token → Prop) : Prop :=
  ∀ c d s, p c = .error d s → d.fault.isBelated = true ∨
    ∃ ts, c.1 = ⟨ts ++ s.1.rest, s.1.last⟩ ∧ (∃ expected, d = s.1.unexpected expected) ∧
      Viable R ts

namespace Stalls

variable {R : α → List Token → Prop}

/-- Tokens that begin an answer still do so if more counts as one. -/
theorem mono {p : Parser n α} {S : α → List Token → Prop} (hp : p.Stalls R)
    (h : ∀ a ts, R a ts → S a ts) : p.Stalls S := by
  intro c d s hrun
  refine (hp c d s hrun).imp_right ?_
  rintro ⟨ts, hc, hd, a, us, ha⟩
  exact ⟨ts, hc, hd, a, us, h a _ ha⟩

theorem pure {a : α} : (pure a : Parser n α).Stalls R := by
  intro c d s hrun
  cases hrun

/-- A fault that is noticed too late may blame any tokens. -/
theorem throw {d : Diagnostic} (hd : d.fault.isBelated = true) :
    (throw d : Parser n α).Stalls R := by
  intro c d' s hrun
  cases hrun
  exact .inl hd

/-- A blamed lookahead stalls where something could have stood. -/
theorem unexpected {expected : String} (h : Viable R []) :
    (unexpected expected : Parser n α).Stalls R := by
  intro c d s hrun
  cases hrun
  exact .inr ⟨[], rfl, ⟨expected, rfl⟩, h⟩

/-- A missing token stalls where one could have stood. -/
theorem expect {kind : TokenKind} {R : Token → List Token → Prop} (h : Viable R []) :
    (expect kind : Parser n Token).Stalls R := by
  rintro ⟨⟨_ | ⟨t, ts⟩, last⟩, hlt⟩ d s hrun
  · cases hrun
    exact .inr ⟨[], rfl, ⟨kind.category, rfl⟩, h⟩
  · simp only [Parser.expect] at hrun
    split at hrun
    · cases hrun
    · cases hrun
      exact .inr ⟨[], rfl, ⟨kind.category, rfl⟩, h⟩

/-- If the first part fails, its tokens can be continued to some that it answers to, and these to
some for the whole. -/
theorem bind {p : Parser n α} {f : α → Parser n β} {S : α → List Token → Prop}
    {R : β → List Token → Prop} (hanswers : p.Answers S) (hp : p.Stalls S)
    (hf : ∀ a us, S a us → (f a).Stalls fun b vs => R b (us ++ vs))
    (hviable : ∀ a us, S a us → Viable (fun b vs => R b (us ++ vs)) []) :
    (p >>= f).Stalls R := by
  intro c d s hrun
  obtain hpc | ⟨a, mid, hpc, hfa⟩ := bind_eq_error hrun
  · refine (hp c d s hpc).imp_right ?_
    rintro ⟨ts, hc, hd, a, us, ha⟩
    obtain ⟨b, vs, hb⟩ := hviable a _ ha
    refine ⟨ts, hc, hd, b, us ++ vs, ?_⟩
    rwa [List.append_assoc] at hb
  · obtain ⟨us, hc, ha⟩ := hanswers c a mid hpc
    refine (hf a us ha mid d s hfa).imp_right ?_
    rintro ⟨vs, hmid, hd, b, ws, hb⟩
    refine ⟨us ++ vs, ?_, hd, b, ws, ?_⟩
    · rw [hc, hmid, List.append_assoc]
    · rwa [List.append_assoc]

/-- A test of the lookahead consumes nothing, so the tokens before it stay viable. -/
theorem isAt_bind {kind : TokenKind} {f : Bool → Parser n α} (hf : ∀ b, (f b).Stalls R) :
    (isAt kind >>= f).Stalls R := by
  intro c d s hrun
  exact hf (c.1.isAt kind) c d s hrun

theorem cursor_bind {f : Cursor → Parser n α} (hf : ∀ c, (f c).Stalls R) :
    (cursor >>= f).Stalls R := by
  intro c d s hrun
  exact hf c.1 c d s hrun

theorem ite {P : Prop} [Decidable P] {p q : Parser n α} (hp : p.Stalls R) (hq : q.Stalls R) :
    (if P then p else q).Stalls R := by
  split
  · exact hp
  · exact hq

/-- A branch stalls where its opening token and what follows were viable, or the other way was. -/
theorem branch {choose : Token → Option (Parser n α)} {otherwise : Parser (n + 1) α}
    (hp : ∀ t p, choose t = some p → p.Stalls fun a ts => R a (t :: ts))
    (hq : otherwise.Stalls R) : (branch choose otherwise).Stalls R := by
  rintro ⟨⟨_ | ⟨t, ts⟩, last⟩, hlt⟩ d s hrun
  · exact hq _ d s hrun
  · cases hchoose : choose t with
    | none =>
      rw [branch_cons_none hchoose] at hrun
      exact hq _ d s hrun
    | some p =>
      rw [branch_cons_some hchoose] at hrun
      obtain ⟨mid, hmid, rfl⟩ := raise_eq_error hrun
      refine (hp t p hchoose _ d mid hmid).imp_right ?_
      rintro ⟨us, hc, hd, a, vs, ha⟩
      exact ⟨t :: us, congrArg (fun c : Cursor => { c with rest := t :: c.rest }) hc, hd, a, vs, ha⟩

end Stalls

/-! ## Prediction -/

/-- However a run of `p` ends, the tokens consumed are those of an answer or begin such, and the
lookahead decides which, for `q` as well. -/
structure Follows (p : Parser n α) (q : Parser m α) (R : α → List Token → Prop) : Prop where
  answers : p.Answers R
  stalls : p.Stalls R
  steady : p.Steady q

/-- `p` follows `R`, and there is something to follow: some tokens are related to an answer. -/
structure Predicts (p : Parser n α) (q : Parser m α) (R : α → List Token → Prop) : Prop
    extends p.Follows q R where
  viable : Viable R []

/-- A production without tokens follows whatever no tokens are related to. -/
theorem Follows.pure {a : α} {R : α → List Token → Prop} (h : R a []) :
    (pure a : Parser n α).Follows (pure a : Parser m α) R where
  answers := .pure h
  stalls := .pure
  steady := .pure

/-- A belated fault follows anything. -/
theorem Follows.throw {d : Diagnostic} {R : α → List Token → Prop}
    (hd : d.fault.isBelated = true) :
    (throw d : Parser n α).Follows (throw d : Parser m α) R where
  answers := .throw
  stalls := .throw hd
  steady := .throw

/-! ### Choices at two bounds -/

/-- What is chosen at one bound has its like at the other. -/
theorem exists_of_rel {r : Parser n α → Parser m α → Prop} {p? : Option (Parser n α)}
    {q? : Option (Parser m α)} (h : Option.Rel r p? q?) {p : Parser n α} (hp : p? = some p) :
    ∃ q, r p q := by
  cases h with
  | some hr =>
    cases hp
    exact ⟨_, hr⟩
  | none => cases hp

/-- Related choices stay related behind a step that they share. -/
theorem rel_map {r : Parser n α → Parser m α → Prop} {s : Parser n β → Parser m β → Prop}
    {p? : Option (Parser n α)} {q? : Option (Parser m α)} {f : Parser n α → Parser n β}
    {g : Parser m α → Parser m β} (h : Option.Rel r p? q?) (hrs : ∀ p q, r p q → s (f p) (g q)) :
    Option.Rel s (p?.map f) (q?.map g) := by
  cases h with
  | some hr => exact .some (hrs _ _ hr)
  | none => exact .none

/-- Related choices stay so under a weaker relation. -/
theorem rel_mono {r s : Parser n α → Parser m α → Prop} {p? : Option (Parser n α)}
    {q? : Option (Parser m α)} (h : Option.Rel r p? q?) (hrs : ∀ p q, r p q → s p q) :
    Option.Rel s p? q? := by
  cases h with
  | some hr => exact .some (hrs _ _ hr)
  | none => exact .none

/-! ### Laws -/

namespace Predicts

variable {p : Parser n α} {q : Parser m α} {R : α → List Token → Prop}

/-- Prediction carries over to a larger relation. -/
theorem mono {S : α → List Token → Prop} (hp : p.Predicts q R) (h : ∀ a ts, R a ts → S a ts) :
    p.Predicts q S where
  answers := hp.answers.mono h
  stalls := hp.stalls.mono h
  steady := hp.steady
  viable := by
    obtain ⟨a, us, ha⟩ := hp.viable
    exact ⟨a, us, h a _ ha⟩

/-- A production without tokens predicts whatever no tokens are related to. -/
theorem pure {a : α} (h : R a []) : (pure a : Parser n α).Predicts (pure a : Parser m α) R where
  toFollows := .pure h
  viable := ⟨a, [], h⟩

/-- A belated fault predicts anything that has an instance. -/
theorem throw {d : Diagnostic} (hd : d.fault.isBelated = true) (h : Viable R []) :
    (throw d : Parser n α).Predicts (throw d : Parser m α) R where
  toFollows := .throw hd
  viable := h

/-- Blaming the lookahead predicts anything that has an instance. -/
theorem unexpected {expected : String} (h : Viable R []) :
    (unexpected expected : Parser n α).Predicts (Parser.unexpected expected : Parser m α) R where
  answers := .unexpected
  stalls := .unexpected h
  steady := .unexpected
  viable := h

/-- **Sequence**: parts that predict in turn predict what their tokens make together. The second may
depend on what the first has answered. -/
theorem bind {f : α → Parser n β} {g : α → Parser m β} {S : α → List Token → Prop}
    {R : β → List Token → Prop} (hp : p.Predicts q S)
    (hf : ∀ a us, S a us → (f a).Predicts (g a) fun b vs => R b (us ++ vs)) :
    (p >>= f).Predicts (q >>= g) R where
  answers := .bind hp.answers fun a us ha => (hf a us ha).answers
  stalls := .bind hp.answers hp.stalls (fun a us ha => (hf a us ha).stalls)
    fun a us ha => (hf a us ha).viable
  steady := .bind hp.steady fun hrun => by
    obtain ⟨us, -, ha⟩ := hp.answers _ _ _ hrun
    exact (hf _ us ha).steady
  viable := by
    obtain ⟨a, us, ha⟩ := hp.viable
    obtain ⟨b, vs, hb⟩ := (hf a us ha).viable
    exact ⟨b, us ++ vs, hb⟩

/-- Making something of an answer consumes nothing. -/
theorem map {f : α → β} {S : α → List Token → Prop} {R : β → List Token → Prop}
    (hp : p.Predicts q S) (hf : ∀ a us, S a us → R (f a) us) :
    (do return f (← p) : Parser n β).Predicts (do return f (← q) : Parser m β) R := by
  refine hp.bind fun a us ha => .pure ?_
  rw [List.append_nil]
  exact hf a us ha

/-- An expected token is predicted by its kind. -/
theorem expect {kind : TokenKind} :
    (expect kind : Parser n Token).Predicts (Parser.expect kind : Parser m Token)
      fun t us => t.kind = kind ∧ us = [t] := by
  have hviable : Viable (fun t us => t.kind = kind ∧ us = [t]) [] :=
    ⟨⟨kind, kind.category, ⟨1, defaultFile⟩⟩, _, rfl, rfl⟩
  exact ⟨⟨.expect fun t ht => ⟨ht, rfl⟩, .expect hviable, .expect⟩, hviable⟩

/-- A consumed token is the first of the tokens consumed. -/
theorem expect_bind {kind : TokenKind} {f : Token → Parser n β} {g : Token → Parser m β}
    {R : β → List Token → Prop}
    (hf : ∀ t, t.kind = kind → (f t).Predicts (g t) fun b vs => R b (t :: vs)) :
    (Parser.expect kind >>= f).Predicts (Parser.expect kind >>= g) R := by
  refine expect.bind ?_
  rintro t us ⟨ht, rfl⟩
  exact hf t ht

/-- A token that is skipped is the first of those consumed. -/
theorem skip_bind {kind : TokenKind} {f : Unit → Parser n β} {g : Unit → Parser m β}
    {R : β → List Token → Prop}
    (hf : ∀ t, t.kind = kind → (f ()).Predicts (g ()) fun b vs => R b (t :: vs)) :
    (Parser.skip kind >>= f).Predicts (Parser.skip kind >>= g) R := by
  have hskip : (Parser.skip kind : Parser n Unit).Predicts (Parser.skip kind : Parser m Unit)
      fun _ us => ∃ t, t.kind = kind ∧ us = [t] :=
    expect_bind fun t ht => .pure ⟨t, ht, rfl⟩
  refine hskip.bind ?_
  rintro _ us ⟨t, ht, rfl⟩
  exact hf t ht

/-- Keeping the cursor in mind for a diagnostic changes nothing else. -/
theorem cursor_bind {f : Cursor → Parser n α} {g : Cursor → Parser m α}
    (hf : ∀ c, (f c).Predicts (g c) R)
    (hok : ∀ start other c a s, g start c = .ok a s → g other c = .ok a s)
    (herror : ∀ start other c d s, g start c = .error d s → ∃ d', g other c = .error d' s) :
    (cursor >>= f).Predicts (cursor >>= g) R where
  answers := .cursor_bind fun c => (hf c).answers
  stalls := .cursor_bind fun c => (hf c).stalls
  steady := .cursor_bind (fun c => (hf c).steady) hok herror
  viable := (hf (.ofTokens [] defaultFile)).viable

/-- A choice by the lookahead consumes nothing of its own. -/
theorem ifAt {kind : TokenKind} {p₁ p₂ : Parser n α} {q₁ q₂ : Parser m α}
    (h₁ : p₁.Predicts q₁ R) (h₂ : p₂.Predicts q₂ R) :
    (do if ← isAt kind then p₁ else p₂ : Parser n α).Predicts
      (do if ← isAt kind then q₁ else q₂ : Parser m α) R where
  answers := .ifAt h₁.answers h₂.answers
  stalls := by
    refine .isAt_bind fun b => ?_
    cases b with
    | false => exact h₂.stalls
    | true => exact h₁.stalls
  steady := .ifAt h₁.steady h₂.steady
  viable := h₂.viable

/-- A branch predicts if the production behind every opening token follows it and the other way
predicts. -/
theorem branch {choose : Token → Option (Parser n α)} {choose' : Token → Option (Parser m α)}
    {otherwise : Parser (n + 1) α} {otherwise' : Parser (m + 1) α}
    (hp : ∀ t, Option.Rel (fun p q => p.Follows q fun a ts => R a (t :: ts))
      (choose t) (choose' t))
    (hq : otherwise.Predicts otherwise' R) :
    (branch choose otherwise).Predicts (Parser.branch choose' otherwise') R where
  answers := by
    refine .branch (fun t p hchoose => ?_) hq.answers
    obtain ⟨q, hfollows⟩ := exists_of_rel (hp t) hchoose
    exact hfollows.answers
  stalls := by
    refine .branch (fun t p hchoose => ?_) hq.stalls
    obtain ⟨q, hfollows⟩ := exists_of_rel (hp t) hchoose
    exact hfollows.stalls
  steady := .branch (fun t => rel_mono (hp t) fun _ _ h => h.steady) hq.steady
  viable := hq.viable

/-- A branch by one kind needs to be looked at for this kind only. -/
theorem branchAt {kind : TokenKind} {next : Token → Parser n α} {next' : Token → Parser m α}
    {otherwise : Parser (n + 1) α} {otherwise' : Parser (m + 1) α}
    (hp : ∀ t, t.kind = kind → (next t).Predicts (next' t) fun a ts => R a (t :: ts))
    (hq : otherwise.Predicts otherwise' R) :
    (branchAt kind next otherwise).Predicts (Parser.branchAt kind next' otherwise') R := by
  refine .branch (fun t => ?_) hq
  split
  · next hkind => exact .some (hp t hkind).toFollows
  · exact .none

/-- Behind a token of a kind, a production predicts if it does behind each such token. -/
theorem after {kind : TokenKind} {next : Token → Parser n α} {next' : Token → Parser m α}
    (hp : ∀ t, t.kind = kind → (next t).Predicts (next' t) fun a ts => R a (t :: ts)) :
    (after kind next).Predicts (Parser.after kind next') R := by
  obtain ⟨a, us, ha⟩ := (hp ⟨kind, kind.category, ⟨1, defaultFile⟩⟩ rfl).viable
  exact .branchAt hp (.unexpected ⟨a, _, ha⟩)

/-- A list that may be missing predicts if the list itself does. -/
theorem upTo {close : TokenKind} {list : Parser n (List α)} {list' : Parser m (List α)}
    {R : List α → List Token → Prop} (hnil : R [] []) (hlist : list.Predicts list' R) :
    (upTo close list).Predicts (Parser.upTo close list') R :=
  .ifAt (.pure hnil) hlist

end Predicts

end Parser

end FrontEnd
