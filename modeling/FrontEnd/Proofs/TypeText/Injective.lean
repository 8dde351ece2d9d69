import FrontEnd.Proofs.TypeText.RoundTrip

/-!
# Different types have different texts

The text of a type hides nothing but defaults, provided that its names are words: then each part of
the text ends where the next mark stands, whatever comes behind. This reaches further than reading
the text back, since the wildcard has a text but no way to be written.

- `Ty.isLettered`: all names in a type are words, as those of a program and the built-in ones are.
- `Ty.Delimited`: the text of a type cannot be mistaken in front of anything but a letter.
- `Ty.text_ne_of_agrees`: so types that do not agree are shown differently.
-/

namespace FrontEnd

/-- Whether all names in a type are words, be they names of the language or not. -/
def Ty.isLettered : Ty → Bool := Ty.namesAll isWord isWord

/-- A function type is lettered if the names and types in it are. -/
theorem Ty.isLettered_fn {params : List Param} {result : Ty} {depth : Nat} :
    (fn params result depth).isLettered = true ↔
      (∀ p ∈ params, isWord p.name = true ∧ p.type.isLettered = true) ∧
        result.isLettered = true :=
  namesAll_fn

/-! ## Runs at the front of a text -/

/-- Equal texts start with the same run of characters, where each ends its own. -/
theorem run_append_inj {p : Char → Bool} {xs ys s s' : List Char} (hxs : ∀ c ∈ xs, p c = true)
    (hys : ∀ c ∈ ys, p c = true) (hs : ∀ c ∈ s.head?, p c = false)
    (hs' : ∀ c ∈ s'.head?, p c = false) (h : xs ++ s = ys ++ s') : xs = ys ∧ s = s' := by
  have hrun : xs = ys := by
    have htake := congrArg (List.takeWhile p) h
    rwa [takeWhile_append_of_stop hs, takeWhile_append_of_stop hs',
      List.takeWhile_eq_self_iff.2 hxs, List.takeWhile_eq_self_iff.2 hys] at htake
  subst hrun
  exact ⟨rfl, List.append_cancel_left h⟩

/-- Two words in front of what ends a word are told apart by their letters. -/
theorem word_append_inj {a b : String} {s s' : List Char} (ha : isWord a = true)
    (hb : isWord b = true) (hs : EndsWord s) (hs' : EndsWord s')
    (h : a.toList ++ s = b.toList ++ s') : a = b ∧ s = s' := by
  obtain ⟨hword, hrest⟩ := run_append_inj (isWord_iff.1 ha).2 (isWord_iff.1 hb).2 hs hs' h
  exact ⟨String.toList_injective hword, hrest⟩

/-- A word is no mark. -/
theorem word_append_ne {a : String} (ha : isWord a = true) {c : Char} (hc : c.isAlpha = false)
    (s s' : List Char) : a.toList ++ s ≠ c :: s' := by
  intro h
  obtain ⟨hne, hletters⟩ := isWord_iff.1 ha
  obtain ⟨d, w, hw⟩ := List.exists_cons_of_ne_nil hne
  rw [hw, List.cons_append] at h
  obtain ⟨rfl, -⟩ := List.cons.inj h
  have hd : d.isAlpha = true := hletters d (hw ▸ List.mem_cons_self)
  exact Bool.noConfusion (hc.symm.trans hd)

/-- So many opening brackets are told by what comes behind them. -/
theorem openBrackets_append_inj {d e : Nat} {s s' : List Char} (hs : ∀ t, s ≠ '[' :: t)
    (hs' : ∀ t, s' ≠ '[' :: t)
    (h : List.replicate d '[' ++ s = List.replicate e '[' ++ s') : d = e ∧ s = s' := by
  have hbracket : ∀ n, ∀ c ∈ List.replicate n '[', (c == '[') = true := by
    intro n c hc
    exact beq_iff_eq.2 (List.eq_of_mem_replicate hc)
  have hstop : ∀ {s : List Char}, (∀ t, s ≠ '[' :: t) → ∀ c ∈ s.head?, (c == '[') = false := by
    intro s hs c hc
    obtain ⟨t, rfl⟩ := List.head?_eq_some_iff.1 hc
    exact beq_eq_false_iff_ne.2 fun heq => hs t (heq ▸ rfl)
  obtain ⟨hrun, hrest⟩ := run_append_inj (hbracket d) (hbracket e) (hstop hs) (hstop hs') h
  have hlength := congrArg List.length hrun
  rw [List.length_replicate, List.length_replicate] at hlength
  exact ⟨hlength, hrest⟩

/-! ## The text of a type in front of another text -/

/-- Whether the text of a type cannot be mistaken for that of a type with another form, wherever no
letter follows. -/
def Ty.Delimited (t : Ty) : Prop :=
  ∀ (u : Ty) (s s' : List Char), u.isLettered = true → EndsWord s → EndsWord s' →
    t.text.toList ++ s = u.text.toList ++ s' → t.bare = u.bare ∧ s = s'

/-- The text of parameters tells them, if that of each type does. The closing parenthesis behind
them ends the list on both sides. -/
theorem Params.text_append_inj {ps qs : List Param} {s s' : List Char}
    (hps : ∀ p ∈ ps, isWord p.name = true ∧ p.type.Delimited)
    (hqs : ∀ q ∈ qs, isWord q.name = true ∧ q.type.isLettered = true)
    (h : (Params.text ps).toList ++ ')' :: s = (Params.text qs).toList ++ ')' :: s') :
    Params.bare ps = Params.bare qs ∧ s = s' := by
  have hbehind : ∀ (params : List Param) (s : List Char), EndsWord
      ((if params = [] then [] else ',' :: ' ' :: (Params.text params).toList) ++ ')' :: s) := by
    intro params s
    split
    · exact endsWord_cons (by decide) s
    · exact endsWord_cons (by decide) _
  induction ps generalizing qs with
  | nil =>
    cases qs with
    | nil => exact ⟨rfl, (List.cons.inj h).2⟩
    | cons q qs =>
      have hword := (hqs q List.mem_cons_self).1
      rw [toList_text_cons, List.append_assoc] at h
      exact absurd h.symm (word_append_ne hword (by decide) _ _)
  | cons p ps ih =>
    obtain ⟨⟨hname, htype⟩, hps⟩ := List.forall_mem_cons.1 hps
    cases qs with
    | nil =>
      rw [toList_text_cons, List.append_assoc] at h
      exact absurd h (word_append_ne hname (by decide) _ _)
    | cons q qs =>
      obtain ⟨⟨hname', htype'⟩, hqs⟩ := List.forall_mem_cons.1 hqs
      rw [toList_text_cons, toList_text_cons] at h
      simp only [List.append_assoc, List.cons_append] at h
      obtain ⟨hnames, hafter⟩ := word_append_inj hname hname' (endsWord_cons (by decide) _)
        (endsWord_cons (by decide) _) h
      have hentry := (List.cons.inj (List.cons.inj hafter).2).2
      obtain ⟨htypes, hlists⟩ := htype _ _ _ htype' (hbehind ps s) (hbehind qs s') hentry
      -- Behind the first types both lists end, or both go on.
      have hrest : Params.bare ps = Params.bare qs ∧ s = s' := by
        by_cases hps0 : ps = [] <;> by_cases hqs0 : qs = []
        · subst hps0 hqs0
          exact ⟨rfl, (List.cons.inj hlists).2⟩
        · rw [if_pos hps0, if_neg hqs0] at hlists
          exact absurd (List.cons.inj hlists).1 (by decide)
        · rw [if_neg hps0, if_pos hqs0] at hlists
          exact absurd (List.cons.inj hlists).1 (by decide)
        · rw [if_neg hps0, if_neg hqs0] at hlists
          exact ih hps hqs (List.cons.inj (List.cons.inj hlists).2).2
      refine ⟨?_, hrest.2⟩
      rw [bare_cons, bare_cons, hnames, htypes, hrest.1]

/-- The text of a lettered type tells the type, up to defaults, and where it ends. -/
theorem Ty.delimited {t : Ty} (ht : t.isLettered = true) : t.Delimited := by
  have hopen : ∀ (name : String) (s : List Char), isWord name = true →
      ∀ rest, name.toList ++ s ≠ '[' :: rest :=
    fun name s hname rest => word_append_ne hname (by decide) s rest
  have hparen : ∀ s rest : List Char, '(' :: s ≠ '[' :: rest :=
    fun s rest h => absurd (List.cons.inj h).1 (by decide)
  induction t using Ty.induction with
  | prim a d =>
    intro u s s' hu hs hs' h
    have ha : isWord a = true := ht
    cases u with
    | prim b e =>
      have hb : isWord b = true := hu
      rw [text, text, toList_bracketed, toList_bracketed] at h
      simp only [List.append_assoc] at h
      obtain ⟨rfl, hname⟩ := openBrackets_append_inj (hopen a _ ha) (hopen b _ hb) h
      obtain ⟨rfl, hclose⟩ := word_append_inj ha hb (endsWord_replicate d hs)
        (endsWord_replicate d hs') hname
      exact ⟨rfl, List.append_cancel_left hclose⟩
    | fn qs r e =>
      rw [toList_text_fn, text, toList_bracketed] at h
      simp only [List.append_assoc, List.cons_append] at h
      -- A name and a parenthesis cannot begin one text.
      obtain ⟨-, hbase⟩ := openBrackets_append_inj (hopen a _ ha) (hparen _) h
      exact absurd hbase (word_append_ne ha (by decide) _ _)
  | fn ps r d hparams hresult =>
    intro u s s' hu hs hs' h
    obtain ⟨hps, hr⟩ := isLettered_fn.1 ht
    cases u with
    | prim b e =>
      have hb : isWord b = true := hu
      rw [toList_text_fn, text, toList_bracketed] at h
      simp only [List.append_assoc, List.cons_append] at h
      obtain ⟨-, hbase⟩ := openBrackets_append_inj (hparen _) (hopen b _ hb) h
      exact absurd hbase.symm (word_append_ne hb (by decide) _ _)
    | fn qs r' e =>
      obtain ⟨hqs, hr'⟩ := isLettered_fn.1 hu
      rw [toList_text_fn, toList_text_fn] at h
      simp only [List.append_assoc, List.cons_append] at h
      obtain ⟨rfl, hbase⟩ := openBrackets_append_inj (hparen _) (hparen _) h
      -- The parts are told from left to right: the parameters end at the parenthesis that closes
      -- them, and the result where the brackets close.
      have hdelimited : ∀ p ∈ ps, isWord p.name = true ∧ p.type.Delimited :=
        fun p hp => ⟨(hps p hp).1, hparams p hp (hps p hp).2⟩
      obtain ⟨hbare, hafter⟩ := Params.text_append_inj hdelimited hqs (List.cons.inj hbase).2
      have hbehind := (List.cons.inj (List.cons.inj hafter).2).2
      obtain ⟨hresults, hclose⟩ := hresult hr _ _ _ hr' (endsWord_replicate d hs)
        (endsWord_replicate d hs') hbehind
      exact ⟨by rw [bare, bare, hbare, hresults], List.append_cancel_left hclose⟩

/-! ## Agreement -/

/-- Defaults are taken away one by one. -/
theorem Params.bare_eq_map (params : List Param) :
    Params.bare params = params.map fun p => ⟨p.name, p.type.bare, none⟩ := by
  induction params with
  | nil => rfl
  | cons p params ih => rw [bare_cons, ih, List.map_cons]

/-- Types that differ in their defaults only agree. -/
theorem Ty.agrees_of_bare_eq {t u : Ty} (h : t.bare = u.bare) : t.agrees u = true := by
  induction t using Ty.induction generalizing u with
  | prim a d =>
    cases u with
    | prim b e =>
      obtain ⟨rfl, rfl⟩ := Ty.prim.inj h
      exact agrees_refl _
    | fn qs s e => cases h
  | fn ps r d hparams hresult =>
    cases u with
    | prim b e => cases h
    | fn qs s e =>
      obtain ⟨hbare, hresults, rfl⟩ := Ty.fn.inj h
      rw [Params.bare_eq_map, Params.bare_eq_map] at hbare
      have hagree : Params.agree ps qs = true := by
        -- Each parameter of either list is at the same place in the other, up to its default.
        refine Params.agree_iff.2 ⟨fun p hp => ?_, fun q hq => ?_⟩
        · obtain ⟨q, hq, hqp⟩ := List.mem_map.1 (hbare ▸ List.mem_map_of_mem hp)
          obtain ⟨hname, htype, -⟩ := Param.mk.inj hqp
          exact ⟨q, hq, Param.agrees_iff.2 ⟨hname.symm, hparams p hp htype.symm⟩⟩
        · obtain ⟨p, hp, hpq⟩ := List.mem_map.1 (hbare.symm ▸ List.mem_map_of_mem hq)
          obtain ⟨hname, htype, -⟩ := Param.mk.inj hpq
          exact ⟨p, hp, Param.agrees_iff.2 ⟨hname, hparams p hp htype⟩⟩
      rw [agrees_fn_fn, hresult hresults, hagree, beq_self_eq_true]
      rfl

/-- Types that do not agree are shown differently. -/
theorem Ty.text_ne_of_agrees {t u : Ty} (ht : t.isLettered = true) (hu : u.isLettered = true)
    (h : t.agrees u = false) : t.text ≠ u.text := by
  intro htext
  have hlists : t.text.toList ++ [] = u.text.toList ++ [] := by rw [htext]
  have hbare := (t.delimited ht u [] [] hu endsWord_nil endsWord_nil hlists).1
  exact Bool.noConfusion (h.symm.trans (agrees_of_bare_eq hbare))

end FrontEnd
