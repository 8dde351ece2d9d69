import FrontEnd.Proofs.Lexing.Longest

/-!
# Scanning word by word

A token ends with its word, since neither its kind nor its length depends on anything behind
(`classLexeme_append`). So a text has the tokens of its lines, and a line those of its words
(`tokenize_eq`).
-/

namespace FrontEnd

/-! ## Nothing behind a word matters -/

/-- Whether a character ends the word in front of it. -/
def isBreak (c : Char) : Bool := c = '\n' || isSeparator c

/-- What stands behind a word. -/
def BehindWord (rest : List Char) : Prop := ∀ c ∈ rest.head?, isBreak c = true

/-- Breaks are line ends and blanks. -/
theorem eq_of_isBreak {c : Char} (h : isBreak c = true) :
    c = '\n' ∨ c = ' ' ∨ c = '\t' ∨ c = '\r' := by
  simpa only [isBreak, isSeparator, Bool.or_eq_true, decide_eq_true_eq, or_assoc] using h

theorem take_length_takeWhile {α : Type} (p : α → Bool) (xs : List α) :
    xs.take (xs.takeWhile p).length = xs.takeWhile p :=
  (List.prefix_iff_eq_take.1 (List.takeWhile_prefix p)).symm

section

variable {p : Char → Bool} {w rest : List Char}

/-- A run that ends in its text does not go on behind it, if what follows stops it. -/
theorem takeWhile_append_of_stop (h : ∀ c ∈ rest.head?, p c = false) :
    (w ++ rest).takeWhile p = w.takeWhile p := by
  have hrest : rest.takeWhile p = [] := by
    cases rest with
    | nil => rfl
    | cons c rest => exact List.takeWhile_cons_of_neg (Bool.eq_false_iff.1 (h c rfl))
  induction w with
  | nil => exact hrest
  | cons c w ih => rw [List.cons_append, List.takeWhile_cons, List.takeWhile_cons, ih]

/-- What a run leaves of a text is left in front of what follows. -/
theorem dropWhile_append_of_stop (h : ∀ c ∈ rest.head?, p c = false) :
    (w ++ rest).dropWhile p = w.dropWhile p ++ rest := by
  have hrest : rest.dropWhile p = rest := by
    cases rest with
    | nil => rfl
    | cons c rest => exact List.dropWhile_cons_of_neg (Bool.eq_false_iff.1 (h c rfl))
  induction w with
  | nil => exact hrest
  | cons c w ih =>
    rw [List.cons_append, List.dropWhile_cons, List.dropWhile_cons, ih]
    split <;> rfl

end

/-- No break is a letter or a digit. -/
theorem isBreak_not_alphanum {c : Char} (h : isBreak c = true) :
    c.isAlpha = false ∧ c.isDigit = false := by
  obtain rfl | rfl | rfl | rfl := eq_of_isBreak h
  all_goals decide

/-- Only a point has digits of a fraction behind it. -/
theorem fractionDigits_of_ne {c : Char} (h : c ≠ '.') (cs : List Char) :
    fractionDigits (c :: cs) = [] := by
  unfold fractionDigits
  split
  · next heq =>
    cases heq
    exact absurd rfl h
  · rfl

/-- What stands behind a word is no part of a fraction in it. -/
theorem fractionDigits_append (w : List Char) {rest : List Char} (h : BehindWord rest) :
    fractionDigits (w ++ rest) = fractionDigits w := by
  cases w with
  | nil =>
    cases rest with
    | nil => rfl
    | cons c rest =>
      have hc : c ≠ '.' := fun hc => absurd (h c rfl) (by rw [hc]; decide)
      exact fractionDigits_of_ne hc rest
  | cons c w =>
    by_cases hc : c = '.'
    · subst hc
      exact takeWhile_append_of_stop fun d hd => (isBreak_not_alphanum (h d hd)).2
    · rw [List.cons_append, fractionDigits_of_ne hc, fractionDigits_of_ne hc]

/-- What stands behind a word is no part of a number in it. -/
theorem numberLexeme_append (w : List Char) {rest : List Char} (h : BehindWord rest) :
    numberLexeme (w ++ rest) = numberLexeme w := by
  have hdigit : ∀ c ∈ rest.head?, c.isDigit = false :=
    fun c hc => (isBreak_not_alphanum (h c hc)).2
  unfold numberLexeme
  rw [takeWhile_append_of_stop hdigit, dropWhile_append_of_stop hdigit, fractionDigits_append _ h]

/-- No mark is written with a break. -/
theorem doubleMark_of_isBreak (c : Char) {d : Char} (h : isBreak d = true) :
    doubleMark c d = none := by
  unfold doubleMark
  split
  case h_7 => rfl
  all_goals exact absurd h (by decide)

/-- What stands behind a word does not prolong a mark at its end. -/
theorem markLexeme_append (c : Char) (w : List Char) {rest : List Char} (h : BehindWord rest) :
    markLexeme c (w ++ rest) = markLexeme c w := by
  cases w with
  | cons d w => rfl
  | nil =>
    cases rest with
    | nil => rfl
    | cons d rest =>
      have hnone : doubleMark c d = none := doubleMark_of_isBreak c (h d rfl)
      unfold markLexeme
      rw [List.nil_append, List.head?_cons, Option.bind_some, hnone]
      rfl

/-- So the token at the front of a word is the same whatever stands behind the word. -/
theorem classLexeme_append (c : Char) (w : List Char) {rest : List Char} (h : BehindWord rest) :
    classLexeme c (w ++ rest) = classLexeme c w := by
  have hletter : ∀ d ∈ rest.head?, d.isAlpha = false :=
    fun d hd => (isBreak_not_alphanum (h d hd)).1
  unfold classLexeme
  rw [← List.cons_append, takeWhile_append_of_stop hletter, numberLexeme_append (c :: w) h,
    markLexeme_append c w h]

/-! ## A token ends with its word -/

theorem fractionDigits_length_lt {cs : List Char} (h : fractionDigits cs ≠ []) :
    (fractionDigits cs).length < cs.length := by
  revert h
  unfold fractionDigits
  split
  · exact fun _ => Nat.lt_succ_of_le (List.takeWhile_prefix _).length_le
  · exact fun h => absurd rfl h

/-- A number is no longer than its text. -/
theorem numberLexeme_le (cs : List Char) : (numberLexeme cs).2 ≤ cs.length := by
  have hwhole : cs.length =
      (cs.takeWhile Char.isDigit).length + (cs.dropWhile Char.isDigit).length := by
    rw [← List.length_append, List.takeWhile_append_dropWhile]
  unfold numberLexeme
  dsimp only
  split
  · omega
  · next hfraction =>
    have hlength := fractionDigits_length_lt hfraction
    omega

/-- A mark is no longer than its text. It is of two characters only if the second is there. -/
theorem markLexeme_le (c : Char) (cs : List Char) : (markLexeme c cs).2 ≤ (c :: cs).length := by
  cases cs with
  | nil => exact Nat.le_refl 1
  | cons d cs =>
    unfold markLexeme
    split
    · exact Nat.le_add_left 2 cs.length
    · exact Nat.le_add_left 1 (d :: cs).length

/-- So the token at the front of a word ends in the word. -/
theorem classLexeme_le (c : Char) (cs : List Char) : (classLexeme c cs).2 ≤ (c :: cs).length := by
  unfold classLexeme
  split
  · exact (List.takeWhile_prefix _).length_le
  · split
    · exact numberLexeme_le _
    · exact markLexeme_le c cs

/-! ## Lines -/

/-- A blank at the front of a line is passed over. -/
theorem scanLine_separator {c : Char} (hc : isSeparator c = true) (line : List Char) :
    scanLine (c :: line) = scanLine line := by
  rw [scanLine, words, List.splitOnP_cons_eq_if_modifyHead, if_pos hc]
  rfl

theorem flatMap_scanWord_filter (w : List Char) (ws : List (List Char)) :
    ((w :: ws).filter (· ≠ [])).flatMap scanWord =
      scanWord w ++ (ws.filter (· ≠ [])).flatMap scanWord := by
  cases w with
  | nil =>
    rw [scanWord]
    rfl
  | cons c w => rfl

/-- A word at the front of a line is scanned by itself. -/
theorem scanLine_append {w line : List Char} (hw : ∀ c ∈ w, isSeparator c = false)
    (hline : ∀ c ∈ line.head?, isSeparator c = true) :
    scanLine (w ++ line) = scanWord w ++ scanLine line := by
  cases line with
  | nil =>
    rw [List.append_nil, scanLine, words, List.splitOnP_eq_singleton hw, flatMap_scanWord_filter]
    rfl
  | cons c line =>
    rw [scanLine_separator (hline c rfl), scanLine, words,
      List.splitOnP_append_cons_of_forall_mem hw c (hline c rfl), flatMap_scanWord_filter]
    rfl

/-- Lexemes that stand on one line. -/
def placed (file : String) (line : Nat) (lexemes : List (TokenKind × String)) : List Token :=
  lexemes.map fun (kind, value) => ⟨kind, value, ⟨line, file⟩⟩

/-- The tokens of lines, numbered from `line` on. -/
def scanLines (file : String) (line : Nat) (lines : List (List Char)) : List Token :=
  (lines.zipIdx line).flatMap fun (piece, number) => placed file number (scanLine piece)

/-- The tokens of several lines are those of the first and then those of the others. -/
theorem scanLines_cons (file : String) (line : Nat) (piece : List Char)
    (pieces : List (List Char)) :
    scanLines file line (piece :: pieces) =
      placed file line (scanLine piece) ++ scanLines file (line + 1) pieces := by
  rw [scanLines, List.zipIdx_cons, List.flatMap_cons]
  rfl

/-! ## Texts -/

/-- A character that is no line end belongs to the first line. -/
theorem splitOn_cons_of_ne {c : Char} (hc : c ≠ '\n') (cs : List Char) :
    (c :: cs).splitOn '\n' = (cs.splitOn '\n').modifyHead (c :: ·) := by
  rw [List.splitOn_cons_eq_if_modifyHead, if_neg (mt eq_of_beq hc)]

/-- A word without line ends belongs to the first line as a whole. -/
theorem splitOn_append_of_notMem {w : List Char} (hw : '\n' ∉ w) (cs : List Char) :
    (w ++ cs).splitOn '\n' = (cs.splitOn '\n').modifyHead (w ++ ·) := by
  induction w with
  | nil =>
    rw [List.nil_append]
    cases cs.splitOn '\n' <;> rfl
  | cons c w ih =>
    rw [List.mem_cons, not_or] at hw
    obtain ⟨hc, hw⟩ := hw
    rw [List.cons_append, splitOn_cons_of_ne (Ne.symm hc), ih hw, List.modifyHead_modifyHead]
    rfl

section

variable (file : String) (line : Nat)

/-- A line end raises the number of the line and is passed over. -/
theorem scanLines_newline (cs : List Char) :
    scanLines file line (('\n' :: cs).splitOn '\n') =
      scanLines file (line + 1) (cs.splitOn '\n') := by
  rw [List.splitOn_cons_eq_if_modifyHead, if_pos (beq_self_eq_true _), scanLines_cons]
  rfl

/-- A blank is passed over wherever it stands. -/
theorem scanLines_separator {c : Char} (hc : c ≠ '\n') (hsep : isSeparator c = true)
    (cs : List Char) :
    scanLines file line ((c :: cs).splitOn '\n') = scanLines file line (cs.splitOn '\n') := by
  obtain ⟨piece, pieces, hpieces⟩ := List.exists_cons_of_ne_nil (List.splitOn_ne_nil '\n' cs)
  rw [splitOn_cons_of_ne hc, hpieces, List.modifyHead_cons, scanLines_cons, scanLines_cons,
    scanLine_separator hsep]

/-- Behind a word the line goes on with a separator, or it ends. -/
theorem isSeparator_of_behindWord {rest piece : List Char} {pieces : List (List Char)}
    (hrest : BehindWord rest) (hpieces : rest.splitOn '\n' = piece :: pieces) :
    ∀ c ∈ piece.head?, isSeparator c = true := by
  cases rest with
  | nil =>
    cases hpieces
    exact fun c hc => absurd hc (Option.not_mem_none c)
  | cons d rest =>
    by_cases hd : d = '\n'
    · rw [List.splitOn_cons_eq_if_modifyHead, if_pos (beq_iff_eq.2 hd)] at hpieces
      cases hpieces
      exact fun c hc => absurd hc (Option.not_mem_none c)
    · obtain ⟨q, qs, hrest'⟩ := List.exists_cons_of_ne_nil (List.splitOn_ne_nil '\n' rest)
      rw [splitOn_cons_of_ne hd, hrest', List.modifyHead_cons] at hpieces
      cases hpieces
      intro c hc
      cases hc
      have hbreak := hrest d rfl
      rw [isBreak, decide_eq_false hd, Bool.false_or] at hbreak
      exact hbreak

/-- A word at the front of a text is scanned by itself, whatever line it stands on. -/
theorem scanLines_word {w rest : List Char} (hw : ∀ c ∈ w, isBreak c = false)
    (hrest : BehindWord rest) :
    scanLines file line ((w ++ rest).splitOn '\n') =
      placed file line (scanWord w) ++ scanLines file line (rest.splitOn '\n') := by
  have hnewline : '\n' ∉ w := fun h => Bool.noConfusion (hw '\n' h)
  have hseparator : ∀ c ∈ w, isSeparator c = false :=
    fun c hc => (Bool.or_eq_false_iff.1 (hw c hc)).2
  obtain ⟨piece, pieces, hpieces⟩ := List.exists_cons_of_ne_nil (List.splitOn_ne_nil '\n' rest)
  rw [splitOn_append_of_notMem hnewline, hpieces, List.modifyHead_cons, scanLines_cons,
    scanLines_cons, scanLine_append hseparator (isSeparator_of_behindWord hrest hpieces), placed,
    List.map_append, List.append_assoc]
  rfl

end

/-- A token is taken off the front of its word. -/
theorem scan_word (file : String) (line : Nat) {c : Char} {w rest : List Char}
    (hc : isBreak c = false) (hrest : BehindWord rest) :
    scan file line 0 (c :: (w ++ rest)) =
      ⟨(classLexeme c w).1, String.ofList ((c :: w).take (classLexeme c w).2), ⟨line, file⟩⟩ ::
        scan file line 0 ((c :: w).drop (classLexeme c w).2 ++ rest) := by
  obtain ⟨hnewline, hseparator⟩ := Bool.or_eq_false_iff.1 hc
  have hnext : nextLexeme (c :: (w ++ rest)) = classLexeme c w := by
    rw [nextLexeme_eq_classLexeme, classLexeme_append c w hrest]
  have hle := classLexeme_le c w
  obtain ⟨n, hn⟩ := Nat.exists_eq_add_one_of_ne_zero (Nat.ne_of_gt (classLexeme_pos c w))
  have htake : (c :: (w ++ rest)).take (classLexeme c w).2 =
      (c :: w).take (classLexeme c w).2 := by
    rw [← List.cons_append, List.take_append_of_le_length hle]
  have hdrop : (w ++ rest).drop ((classLexeme c w).2 - 1) =
      (c :: w).drop (classLexeme c w).2 ++ rest := by
    rw [← List.drop_append_of_le_length hle, hn]
    rfl
  rw [scan, if_neg (of_decide_eq_false hnewline), if_neg (Bool.eq_false_iff.1 hseparator), hnext]
  dsimp only
  rw [htake, scan_skip, hdrop]

/-- Every text begins with a word, which may be empty. -/
theorem exists_word (cs : List Char) :
    ∃ w rest, cs = w ++ rest ∧ (∀ c ∈ w, isBreak c = false) ∧ BehindWord rest := by
  refine ⟨cs.takeWhile (!isBreak ·), cs.dropWhile (!isBreak ·), ?_, fun c hc => ?_, ?_⟩
  · exact List.takeWhile_append_dropWhile.symm
  · have hinside := List.mem_takeWhile_imp (p := fun d => !isBreak d) hc
    rwa [Bool.not_eq_true'] at hinside
  · intro c hc
    have hstop := List.head?_dropWhile_not (!isBreak ·) cs
    rw [hc] at hstop
    dsimp only at hstop
    rwa [Bool.not_eq_false'] at hstop

/-- **Scanning by words**: the scan of a text, which counts characters and line ends, is that of its
lines word by word. The induction is on the text, a break or a whole word at a time. -/
theorem scan_eq_scanLines (file : String) : ∀ (line : Nat) (cs : List Char),
    scan file line 0 cs = scanLines file line (cs.splitOn '\n')
  | line, [] => rfl
  | line, c :: cs => by
    by_cases hnewline : c = '\n'
    · rw [scan, if_pos hnewline, hnewline, scanLines_newline]
      exact scan_eq_scanLines file (line + 1) cs
    · by_cases hseparator : isSeparator c = true
      · rw [scan, if_neg hnewline, if_pos hseparator,
          scanLines_separator file line hnewline hseparator]
        exact scan_eq_scanLines file line cs
      · have hc : isBreak c = false := by
          rw [isBreak, decide_eq_false hnewline, Bool.false_or, Bool.eq_false_iff]
          exact hseparator
        -- `scan` takes one token off the word at the front, `scanLines` the word as a whole.
        obtain ⟨w, rest, hcs, hw, hrest⟩ := exists_word cs
        have hcw : ∀ d ∈ c :: w, isBreak d = false := List.forall_mem_cons.2 ⟨hc, hw⟩
        -- What is left of the word behind its first token is a word again.
        have hleft : ∀ d ∈ (c :: w).drop (classLexeme c w).2, isBreak d = false :=
          fun d hd => hcw d (List.mem_of_mem_drop hd)
        have hshorter : w.length + 1 - (classLexeme c w).2 + rest.length < cs.length + 1 := by
          have hpos := classLexeme_pos c w
          rw [hcs, List.length_append]
          omega
        have ih := scan_eq_scanLines file line ((c :: w).drop (classLexeme c w).2 ++ rest)
        have hword := scanLines_word file line hcw hrest
        rw [List.cons_append, scanWord] at hword
        rw [hcs, scan_word file line hc hrest, ih, scanLines_word file line hleft hrest, hword]
        rfl
termination_by _ cs => cs.length

/-- A text has the tokens of its lines, and a line those of its words. -/
theorem tokenize_eq (source file : String) :
    tokenize source file = scanLines file 1 (source.toList.splitOn '\n') :=
  scan_eq_scanLines file 1 source.toList

/-- The places of tokens apart, numbering the lines changes nothing. -/
theorem scanLines_lexemes (file : String) (line : Nat) (lines : List (List Char)) :
    (scanLines file line lines).map Token.lexeme = lines.flatMap scanLine := by
  induction lines generalizing line with
  | nil => rfl
  | cons piece pieces ih =>
    have hplaced : (placed file line (scanLine piece)).map Token.lexeme = scanLine piece := by
      rw [placed, List.map_map]
      exact List.map_id _
    rw [scanLines_cons, List.map_append, hplaced, ih, List.flatMap_cons]

/-- What holds of the token at the front of every word holds of all tokens of a word. -/
theorem forall_mem_scanWord (P : TokenKind → List Char → Prop)
    (h : ∀ c cs, P (classLexeme c cs).1 ((c :: cs).take (classLexeme c cs).2)) (w : List Char) :
    ∀ lexeme ∈ scanWord w, P lexeme.1 lexeme.2.toList := by
  induction w using scanWord.induct with
  | case1 =>
    rw [scanWord]
    exact List.forall_mem_nil _
  | case2 c cs next ih =>
    rw [scanWord]
    refine List.forall_mem_cons.2 ⟨?_, ih⟩
    rw [String.toList_ofList]
    exact h c cs

/-- Every token comes from some word. -/
theorem exists_scanWord_of_mem_tokenize {source file : String} {t : Token}
    (ht : t ∈ tokenize source file) : ∃ w, t.lexeme ∈ scanWord w := by
  have hlexeme : t.lexeme ∈ (tokenize source file).map Token.lexeme := List.mem_map_of_mem ht
  rw [tokenize_eq, scanLines_lexemes, List.mem_flatMap] at hlexeme
  obtain ⟨line, -, hline⟩ := hlexeme
  obtain ⟨w, -, hword⟩ := List.mem_flatMap.1 hline
  exact ⟨w, hword⟩

/-- The kinds of operators and marks, and of what is none. -/
def markKinds : List TokenKind :=
  [.assign, .arrow, .relOp, .addOp, .mulOp, .openParen, .closeParen, .openBracket, .closeBracket,
    .openCurly, .closeCurly, .semicolon, .colon, .comma, .unknown]

/-- A mark is of one of these kinds, whatever its characters. -/
theorem markLexeme_mem_markKinds (c : Char) (cs : List Char) :
    (markLexeme c cs).1 ∈ markKinds := by
  unfold markLexeme
  split
  · next kind hkind =>
    obtain ⟨d, -, hd⟩ := Option.bind_eq_some_iff.1 hkind
    unfold doubleMark at hd
    split at hd <;> cases hd <;> decide
  · unfold singleMark
    split <;> decide

/-- **Longest match is scanning by classes**: the rules, their order and their ties give a text the
kinds and texts that the first character of each token tells. -/
theorem tokenize_lexemes (source file : String) :
    (tokenize source file).map Token.lexeme =
      (source.toList.splitOn '\n').flatMap fun line => (words line).flatMap scanWord := by
  rw [tokenize_eq]
  exact scanLines_lexemes file 1 _

end FrontEnd
