import FrontEnd.Proofs.Lexing.Conservation

/-!
# Other blanks between the tokens

A token is cut out of a longer word, at the place where the longest match ends. Standing alone it is
scanned as one token again, of the same kind: nothing behind its end had a part in the match. So the
tokens of a text can be taken apart and put together again with any blanks between them.

- `classLexeme_take`: a lexeme is found again in its own characters.
- `StandsAlone`: a lexeme is scanned as what it is if it stands alone. Every lexeme of a text does
  (`standsAlone_of_mem_tokenize`).
- `lexemes_interspaced`: lexemes that stand alone are scanned one by one between blanks.
- `tokenize_respaced`: so a text can be given other blanks between its tokens.
-/

namespace FrontEnd

/-! ## Lexemes in their own characters -/

theorem takeWhile_takeWhile_self {α : Type} (p : α → Bool) (xs : List α) :
    (xs.takeWhile p).takeWhile p = xs.takeWhile p :=
  List.takeWhile_eq_self_iff.2 fun _ hx => List.mem_takeWhile_imp hx

/-- Digits of a fraction stand behind a point. -/
theorem exists_point {cs : List Char} (h : fractionDigits cs ≠ []) :
    ∃ rest, cs = '.' :: rest ∧ fractionDigits cs = rest.takeWhile Char.isDigit := by
  revert h
  unfold fractionDigits
  split
  · next rest => exact fun _ => ⟨rest, rfl, rfl⟩
  · exact fun h => absurd rfl h

/-- A number is found again in its own digits and its point. -/
theorem numberLexeme_take (cs : List Char) :
    numberLexeme (cs.take (numberLexeme cs).2) = numberLexeme cs := by
  obtain ⟨whole, hwhole⟩ : ∃ whole, cs.takeWhile Char.isDigit = whole := ⟨_, rfl⟩
  have hrun : whole.takeWhile Char.isDigit = whole := hwhole ▸ takeWhile_takeWhile_self _ cs
  have hnone : whole.dropWhile Char.isDigit = [] := by
    refine List.dropWhile_eq_nil_iff.2 fun c hc => ?_
    exact List.mem_takeWhile_imp (hwhole ▸ hc)
  by_cases hfraction : fractionDigits (cs.dropWhile Char.isDigit) = []
  · have hnumber : numberLexeme cs = (.number, whole.length) := by
      rw [numberLexeme, hwhole]
      exact if_pos hfraction
    have htake : cs.take whole.length = whole := hwhole ▸ take_length_takeWhile _ cs
    rw [hnumber, htake, numberLexeme, hrun, hnone]
    exact if_pos rfl
  · obtain ⟨rest, hdrop, hdigits⟩ := exists_point hfraction
    obtain ⟨fraction, hfractionDigits⟩ : ∃ fraction, rest.takeWhile Char.isDigit = fraction :=
      ⟨_, rfl⟩
    rw [hdigits, hfractionDigits] at hfraction
    have hnumber : numberLexeme cs = (.float, whole.length + 1 + fraction.length) := by
      rw [numberLexeme, hwhole, hdigits, hfractionDigits]
      exact if_neg hfraction
    -- The point ends the digits in front of it, whether or not more follows the fraction.
    have hstop : ∀ c ∈ ('.' :: fraction).head?, Char.isDigit c = false := by
      rintro _ ⟨⟩
      rfl
    have htake : cs.take (whole.length + 1 + fraction.length) = whole ++ '.' :: fraction := by
      have hsplit : cs = whole ++ '.' :: rest := by
        rw [← hwhole, ← hdrop, List.takeWhile_append_dropWhile]
      have hfront : rest.take fraction.length = fraction :=
        hfractionDigits ▸ take_length_takeWhile _ rest
      rw [hsplit, Nat.add_assoc, List.take_length_add_append, Nat.add_comm 1, List.take_succ_cons,
        hfront]
    have hagain : fractionDigits ('.' :: fraction) = fraction :=
      hfractionDigits ▸ takeWhile_takeWhile_self _ rest
    rw [hnumber, htake, numberLexeme, takeWhile_append_of_stop hstop,
      dropWhile_append_of_stop hstop, hrun, hnone, List.nil_append, hagain]
    exact if_neg hfraction

/-- An operator or mark is found again in its own characters. -/
theorem markLexeme_take (c : Char) (cs : List Char) :
    markLexeme c (cs.take ((markLexeme c cs).2 - 1)) = markLexeme c cs := by
  cases hdouble : cs.head?.bind (doubleMark c) with
  | some kind =>
    obtain ⟨d, hd, hkind⟩ := Option.bind_eq_some_iff.1 hdouble
    obtain ⟨rest, rfl⟩ := List.head?_eq_some_iff.1 hd
    simp [markLexeme, hkind]
  | none => simp [markLexeme, hdouble]

/-- A lexeme is found again in its own characters. -/
theorem classLexeme_take (c : Char) (cs : List Char) :
    classLexeme c (cs.take ((classLexeme c cs).2 - 1)) = classLexeme c cs := by
  have hfront : ∀ n, 0 < n → c :: cs.take (n - 1) = (c :: cs).take n := by
    intro n hn
    obtain ⟨m, rfl⟩ := Nat.exists_eq_add_one_of_ne_zero (Nat.ne_of_gt hn)
    rfl
  -- A lexeme of each class is read from no more than its own characters.
  have hpos := classLexeme_pos c cs
  unfold classLexeme at hpos ⊢
  by_cases hletter : c.isAlpha = true
  · simp only [if_pos hletter] at hpos ⊢
    rw [hfront _ hpos, take_length_takeWhile, takeWhile_takeWhile_self]
  · simp only [if_neg hletter] at hpos ⊢
    by_cases hdigit : c.isDigit = true
    · simp only [if_pos hdigit] at hpos ⊢
      rw [hfront _ hpos, numberLexeme_take]
    · simp only [if_neg hdigit]
      exact markLexeme_take c cs

/-! ## Lexemes that stand alone -/

/-- Whether a lexeme holds no break and, standing alone, is scanned as what it is. -/
def StandsAlone (lexeme : TokenKind × String) : Prop :=
  (∀ c ∈ lexeme.2.toList, isBreak c = false) ∧ scanWord lexeme.2.toList = [lexeme]

/-- The characters of a token, taken alone, are scanned as this token. -/
theorem scanWord_take (c : Char) (cs : List Char) :
    scanWord ((c :: cs).take (classLexeme c cs).2) =
      [((classLexeme c cs).1, String.ofList ((c :: cs).take (classLexeme c cs).2))] := by
  have hagain := classLexeme_take c cs
  obtain ⟨n, hn⟩ := Nat.exists_eq_add_one_of_ne_zero (Nat.ne_of_gt (classLexeme_pos c cs))
  have hlength : (c :: cs.take n).length = n + 1 := by
    have hle := classLexeme_le c cs
    rw [hn, List.length_cons] at hle
    rw [List.length_cons, List.length_take_of_le (Nat.le_of_succ_le_succ hle)]
  rw [hn, Nat.add_sub_cancel] at hagain
  rw [hn, List.take_succ_cons, scanWord]
  -- All characters are taken, so nothing of the word is left.
  rw [hagain, hn, List.take_of_length_le (Nat.le_of_eq hlength),
    List.drop_of_length_le (Nat.le_of_eq hlength), scanWord]

/-- So every token of a word stands alone. -/
theorem scanWord_of_mem {w : List Char} {lexeme : TokenKind × String} (h : lexeme ∈ scanWord w) :
    scanWord lexeme.2.toList = [lexeme] := by
  induction w using scanWord.induct with
  | case1 =>
    rw [scanWord] at h
    cases h
  | case2 c cs next ih =>
    rw [scanWord] at h
    rcases List.mem_cons.1 h with rfl | hrest
    · rw [String.toList_ofList]
      exact scanWord_take c cs
    · exact ih hrest

/-- What a list is split at stands in none of its pieces. -/
theorem eq_false_of_mem_splitOnP {α : Type} {p : α → Bool} {xs piece : List α}
    (h : piece ∈ xs.splitOnP p) : ∀ x ∈ piece, p x = false := by
  intro x hx
  have hflatten : x ∈ (xs.splitOnP p).flatten := List.mem_flatten_of_mem h hx
  rw [splitOnP_flatten] at hflatten
  simpa using List.of_mem_filter hflatten

/-- Every token of a text is scanned as itself from its own characters. -/
theorem standsAlone_of_mem_tokenize {source file : String} {t : Token}
    (h : t ∈ tokenize source file) : StandsAlone t.lexeme := by
  rw [tokenize_eq] at h
  obtain ⟨-, number, line, -, hline, hlexeme⟩ := mem_scanLines h
  obtain ⟨w, hw, hmem⟩ := List.mem_flatMap.1 hlexeme
  obtain ⟨-, -, hinfix⟩ := mem_scanWord hmem
  refine ⟨fun c hc => ?_, scanWord_of_mem hmem⟩
  have hcw : c ∈ w := hinfix.subset hc
  have hcline : c ∈ line := (isInfix_of_mem_words hw).subset hcw
  have hseparator := eq_false_of_mem_splitOnP (List.mem_of_mem_filter hw) c hcw
  have hnewline := eq_false_of_mem_splitOnP (List.mem_of_getElem? hline) c hcline
  rw [isBreak, hseparator, Bool.or_false]
  simpa using hnewline

/-! ## Lexemes between blanks -/

/-- The lexemes of a text. -/
def lexemes (cs : List Char) : List (TokenKind × String) := (cs.splitOn '\n').flatMap scanLine

/-- The kinds and texts of tokens do not depend on the line or the file. -/
theorem lexemes_eq (file : String) (line : Nat) (cs : List Char) :
    lexemes cs = (scanLines file line (cs.splitOn '\n')).map Token.lexeme :=
  (scanLines_lexemes file line _).symm

/-- A break at the front of a text changes nothing. -/
theorem lexemes_break {c : Char} (hc : isBreak c = true) (cs : List Char) :
    lexemes (c :: cs) = lexemes cs := by
  rw [lexemes_eq defaultFile 1]
  by_cases hnewline : c = '\n'
  · rw [hnewline, scanLines_newline]
    exact scanLines_lexemes _ _ _
  · rw [isBreak, decide_eq_false hnewline, Bool.false_or] at hc
    rw [scanLines_separator defaultFile 1 hnewline hc]
    exact scanLines_lexemes _ _ _

/-- A gap of breaks at the front of a text changes nothing. -/
theorem lexemes_gap {gap : List Char} (hgap : ∀ c ∈ gap, isBreak c = true) (cs : List Char) :
    lexemes (gap ++ cs) = lexemes cs := by
  induction gap with
  | nil => rfl
  | cons c gap ih =>
    obtain ⟨hc, hgap⟩ := List.forall_mem_cons.1 hgap
    rw [List.cons_append, lexemes_break hc, ih hgap]

/-- A lexeme that stands alone is scanned by itself in front of a break. -/
theorem lexemes_append {lexeme : TokenKind × String} (h : StandsAlone lexeme) {rest : List Char}
    (hrest : BehindWord rest) : lexemes (lexeme.2.toList ++ rest) = lexeme :: lexemes rest := by
  rw [lexemes_eq defaultFile 1, scanLines_word defaultFile 1 h.1 hrest, h.2, List.map_append,
    scanLines_lexemes]
  rfl

/-- Whether a text is blank: spaces, tabs, carriage returns and line feeds. -/
def IsGap (gap : String) : Prop := ∀ c ∈ gap.toList, isBreak c = true

instance (gap : String) : Decidable (IsGap gap) :=
  decidable_of_iff (gap.toList.all isBreak = true) List.all_eq_true

/-- Texts in a row, with a gap between any two of them. -/
def interspaced (gap : Nat → String) : List String → String
  | [] => ""
  | [text] => text
  | text :: next :: texts =>
    text ++ gap 0 ++ interspaced (fun i => gap (i + 1)) (next :: texts)

theorem behindWord_of_isGap {gap : String} (h : IsGap gap) : BehindWord gap.toList :=
  fun _ hc => h _ (List.mem_of_head? hc)

/-- A gap that is not empty ends the word in front of it. -/
theorem behindWord_append {gap : String} (h : IsGap gap) (hne : gap ≠ "") (rest : List Char) :
    BehindWord (gap.toList ++ rest) := by
  intro c hc
  have hfront : gap.toList ≠ [] := fun hnil => hne (String.toList_eq_nil_iff.1 hnil)
  rw [List.head?_append_of_ne_nil _ hfront] at hc
  exact behindWord_of_isGap h c hc

/-- Lexemes that stand alone are scanned one by one between gaps. -/
theorem lexemes_interspaced {gap : Nat → String} (hgap : ∀ i, IsGap (gap i) ∧ gap i ≠ "")
    {back : String} (hback : IsGap back) (row : List (TokenKind × String))
    (hrow : ∀ lexeme ∈ row, StandsAlone lexeme) :
    lexemes ((interspaced gap (row.map Prod.snd)).toList ++ back.toList) = row := by
  have hend : lexemes back.toList = [] := by
    have h := lexemes_gap hback []
    rwa [List.append_nil] at h
  induction row generalizing gap with
  | nil => exact hend
  | cons lexeme row ih =>
    obtain ⟨hlexeme, hothers⟩ := List.forall_mem_cons.1 hrow
    cases row with
    | nil =>
      show lexemes (lexeme.2.toList ++ back.toList) = _
      rw [lexemes_append hlexeme (behindWord_of_isGap hback), hend]
    | cons next row =>
      have hbehind := ih (fun i => hgap (i + 1)) hothers
      have htext : (interspaced gap ((lexeme :: next :: row).map Prod.snd)).toList ++ back.toList =
          lexeme.2.toList ++ ((gap 0).toList ++
            ((interspaced (fun i => gap (i + 1)) ((next :: row).map Prod.snd)).toList ++
              back.toList)) := by
        rw [List.map_cons, List.map_cons, interspaced, String.toList_append, String.toList_append,
          List.append_assoc, List.append_assoc]
      -- The gap ends the word in front of it, and is then skipped.
      rw [htext, lexemes_append hlexeme (behindWord_append (hgap 0).1 (hgap 0).2 _),
        lexemes_gap (hgap 0).1, hbehind]

/-- **Respacing**: the tokens of a text, taken apart and put together again with any blanks between
them and around them, are scanned as what they are: the same kinds and texts in the same order. -/
theorem tokenize_respaced (source file other : String) {front back : String} {gap : Nat → String}
    (hfront : IsGap front) (hback : IsGap back) (hgap : ∀ i, IsGap (gap i) ∧ gap i ≠ "") :
    (tokenize (front ++ interspaced gap ((tokenize source file).map Token.value) ++ back)
        other).map Token.lexeme = (tokenize source file).map Token.lexeme := by
  have hrow : ∀ lexeme ∈ (tokenize source file).map Token.lexeme, StandsAlone lexeme := by
    intro lexeme hlexeme
    obtain ⟨t, ht, rfl⟩ := List.mem_map.1 hlexeme
    exact standsAlone_of_mem_tokenize ht
  have hvalues : (tokenize source file).map Token.value =
      ((tokenize source file).map Token.lexeme).map Prod.snd := by
    rw [List.map_map]
    rfl
  rw [tokenize_eq, scanLines_lexemes, hvalues]
  show lexemes _ = _
  rw [String.toList_append, String.toList_append, List.append_assoc, lexemes_gap hfront]
  exact lexemes_interspaced hgap hback _ hrow

/-- A text without blanks, in which each token ends where a longer one might go on. -/
def denseText : String := "intx<-3.5.=@2."

/-- Blanks of two kinds in turn. -/
def mixedGap (i : Nat) : String := if i % 2 = 0 then " " else "\t\r\n"

/-- With blanks between them the tokens are the same, a lone point and other unknown characters
included. -/
theorem denseText_respaced :
    IsGap "\n" ∧ IsGap "" ∧ (∀ i, IsGap (mixedGap i) ∧ mixedGap i ≠ "") ∧
      interspaced mixedGap ((tokenize denseText defaultFile).map Token.value) =
        "intx <-\t\r\n3.5 .\t\r\n= @\t\r\n2 ." ∧
      (tokenize ("\n" ++ interspaced mixedGap ((tokenize denseText defaultFile).map Token.value) ++
        "") defaultFile).map Token.lexeme = (tokenize denseText defaultFile).map Token.lexeme := by
  have hfront : IsGap "\n" := by decide
  have hback : IsGap "" := by decide
  have hgap : ∀ i, IsGap (mixedGap i) ∧ mixedGap i ≠ "" := by
    intro i
    unfold mixedGap
    split <;> decide
  have htext : interspaced mixedGap ((tokenize denseText defaultFile).map Token.value) =
      "intx <-\t\r\n3.5 .\t\r\n= @\t\r\n2 ." := by
    decide +kernel
  exact ⟨hfront, hback, hgap, htext, tokenize_respaced _ _ _ hfront hback hgap⟩

end FrontEnd
