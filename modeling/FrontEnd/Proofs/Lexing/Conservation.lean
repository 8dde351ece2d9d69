import FrontEnd.Proofs.Lexing.Words
import Mathlib.Algebra.Order.BigOperators.Group.List
import Mathlib.Algebra.Order.Group.Nat

/-!
# Nothing is lost

A text is cut into tokens without loss: the tokens of a line are the line without its separators,
piece by piece. The two splits, into lines and into words, and the scan of a word each keep the
characters that they do not separate at.

- `scanWord_flatMap`: the tokens of a word make up the word; `scanWord_bytes`: so do their bytes.
- `words_flatten`: its words make up a line without its separators.
- `scanLines_spec`: what holds of the tokens of lines that are numbered from some number on.
- `tokenize_conserves`: so it is for a whole text.
-/

namespace FrontEnd

/-! ## Words -/

/-- A word is an identifier or reserved under its own spelling. -/
theorem wordKind_cases (run : List Char) :
    wordKind run = .identifier ∨ (String.ofList run, wordKind run) ∈ wordKinds := by
  unfold wordKind
  cases hlookup : wordKinds.lookup (String.ofList run) with
  | none => exact .inl rfl
  | some kind =>
    obtain ⟨above, below, hsplit, -⟩ := List.lookup_eq_some_iff.1 hlookup
    right
    rw [hsplit]
    exact List.mem_append_cons_self

/-- No word is of an unknown kind. -/
theorem wordKind_ne_unknown (run : List Char) : wordKind run ≠ .unknown := by
  have hknown : ∀ entry ∈ wordKinds, entry.2 ≠ .unknown := by decide
  rcases wordKind_cases run with hidentifier | hmem
  · rw [hidentifier]
    exact TokenKind.noConfusion
  · exact hknown _ hmem

/-- No mark of two characters is of an unknown kind. -/
theorem doubleMark_ne_unknown (c d : Char) : doubleMark c d ≠ some .unknown := by
  unfold doubleMark
  split <;> nofun

/-- What the language does not know is a lexeme of one character. -/
theorem classLexeme_unknown {c : Char} {cs : List Char} (h : (classLexeme c cs).1 = .unknown) :
    (classLexeme c cs).2 = 1 := by
  unfold classLexeme at h ⊢
  split at h
  · exact absurd h (wordKind_ne_unknown _)
  · next hletter =>
    rw [if_neg hletter]
    split at h
    · unfold numberLexeme at h
      dsimp only at h
      split at h <;> cases h
    · next hdigit =>
      rw [if_neg hdigit]
      unfold markLexeme at h ⊢
      split at h
      · next kind hkind =>
        obtain ⟨d, -, hd⟩ := Option.bind_eq_some_iff.1 hkind
        exact absurd (hd.trans (congrArg some h)) (doubleMark_ne_unknown c d)
      · rfl

/-- The tokens of a word, one behind the other, are the word. -/
theorem scanWord_flatMap (w : List Char) : (scanWord w).flatMap (·.2.toList) = w := by
  induction w using scanWord.induct with
  | case1 =>
    rw [scanWord]
    rfl
  | case2 c cs next ih =>
    rw [scanWord, List.flatMap_cons, ih, String.toList_ofList]
    exact List.take_append_drop _ _

/-- Every token of a word is a piece of it, with at least one character. -/
theorem mem_scanWord {w : List Char} {lexeme : TokenKind × String} (h : lexeme ∈ scanWord w) :
    lexeme.2 ≠ "" ∧ (lexeme.1 = .unknown → lexeme.2.length = 1) ∧ lexeme.2.toList <:+: w := by
  induction w using scanWord.induct with
  | case1 =>
    rw [scanWord] at h
    cases h
  | case2 c cs next ih =>
    rw [scanWord] at h
    have hlength : ((c :: cs).take next.2).length = next.2 :=
      List.length_take_of_le (classLexeme_le c cs)
    rcases List.mem_cons.1 h with rfl | hrest
    · refine ⟨?_, ?_, ?_⟩
      · intro hempty
        have hnil : (c :: cs).take next.2 = [] := String.ofList_eq_empty_iff.1 hempty
        rw [hnil] at hlength
        exact absurd hlength (Nat.ne_of_lt (classLexeme_pos c cs))
      · intro hunknown
        rw [String.length_ofList, hlength]
        exact classLexeme_unknown hunknown
      · rw [String.toList_ofList]
        exact (List.take_prefix _ _).isInfix
    · obtain ⟨hne, hunknown, hinfix⟩ := ih hrest
      exact ⟨hne, hunknown, hinfix.trans (List.drop_suffix _ _).isInfix⟩

/-! ## Bytes -/

/-- The number of bytes that some tokens take in UTF-8. -/
def lexemeBytes : List (TokenKind × String) → Nat
  | [] => 0
  | lexeme :: lexemes => lexeme.2.utf8ByteSize + lexemeBytes lexemes

/-- The bytes of tokens are those of their characters. -/
theorem size_utf8Encode_lexemes (lexemes : List (TokenKind × String)) :
    (lexemes.flatMap (·.2.toList)).utf8Encode.size = lexemeBytes lexemes := by
  induction lexemes with
  | nil => rfl
  | cons lexeme lexemes ih =>
    rw [List.flatMap_cons, List.utf8Encode_append, ByteArray.size_append, ih,
      String.utf8Encode_toList, String.size_toByteArray, lexemeBytes]

/-- Characters are counted here, but a word can as well be cut at byte offsets. In its UTF-8 form
each token starts where the bytes of those before it end. Its own bytes are the next ones, and
behind it are those of the tokens that follow. -/
theorem scanWord_bytes {w : List Char} {before after : List (TokenKind × String)}
    {lexeme : TokenKind × String} (h : scanWord w = before ++ lexeme :: after) :
    w.utf8Encode.extract (lexemeBytes before) (lexemeBytes before + lexeme.2.utf8ByteSize) =
        lexeme.2.toByteArray ∧
      w.utf8Encode.extract (lexemeBytes before + lexeme.2.utf8ByteSize) w.utf8Encode.size =
        (after.flatMap (·.2.toList)).utf8Encode := by
  have hbytes : w.utf8Encode = (before.flatMap (·.2.toList)).utf8Encode ++
      (lexeme.2.toByteArray ++ (after.flatMap (·.2.toList)).utf8Encode) := by
    have hflat := scanWord_flatMap w
    rw [h, List.flatMap_append, List.flatMap_cons] at hflat
    rw [← hflat, List.utf8Encode_append, List.utf8Encode_append, String.utf8Encode_toList]
  have hbefore := size_utf8Encode_lexemes before
  have hlexeme : lexeme.2.toByteArray.size = lexeme.2.utf8ByteSize := String.size_toByteArray
  rw [hbytes, ← hbefore, ← hlexeme]
  constructor
  · rw [← Nat.add_zero (List.utf8Encode _).size, Nat.add_assoc, ByteArray.extract_append_size_add,
      Nat.zero_add]
    exact ByteArray.extract_append_eq_left rfl
  · rw [ByteArray.size_append, ByteArray.extract_append_size_add, ByteArray.size_append]
    exact ByteArray.extract_append_eq_right rfl rfl

/-! ## Lines -/

section

variable {α : Type} (p : α → Bool)

/-- Splitting a list loses the separators and nothing else. -/
theorem splitOnP_flatten (xs : List α) : (xs.splitOnP p).flatten = xs.filter (!p ·) := by
  induction xs with
  | nil => rfl
  | cons x xs ih =>
    obtain ⟨piece, pieces, hpieces⟩ := List.exists_cons_of_ne_nil (List.splitOnP_ne_nil p xs)
    rw [List.splitOnP_cons_eq_if_modifyHead, List.filter_cons]
    rw [hpieces] at ih ⊢
    cases hx : p x with
    | true => exact ih
    | false => exact congrArg (x :: ·) ih

/-- The pieces of a list stand in it, the first of them in front. -/
theorem splitOnP_isInfix {xs piece : List α} {pieces : List (List α)}
    (h : xs.splitOnP p = piece :: pieces) : piece <+: xs ∧ ∀ w ∈ pieces, w <:+: xs := by
  induction xs generalizing piece pieces with
  | nil =>
    cases h
    exact ⟨List.prefix_rfl, List.forall_mem_nil _⟩
  | cons x xs ih =>
    obtain ⟨first, others, hsplit⟩ := List.exists_cons_of_ne_nil (List.splitOnP_ne_nil p xs)
    obtain ⟨hfirst, hothers⟩ := ih hsplit
    have hbehind : xs <:+: x :: xs := (List.suffix_cons x xs).isInfix
    have hothers' : ∀ w ∈ others, w <:+: x :: xs := fun w hw => (hothers w hw).trans hbehind
    rw [List.splitOnP_cons_eq_if_modifyHead, hsplit] at h
    split at h
    · cases h
      exact ⟨List.nil_prefix, List.forall_mem_cons.2 ⟨hfirst.isInfix.trans hbehind, hothers'⟩⟩
    · cases h
      exact ⟨List.cons_prefix_cons.2 ⟨rfl, hfirst⟩, hothers'⟩

end

/-- Its words make up a line without its separators. -/
theorem words_flatten (line : List Char) :
    (words line).flatten = line.filter (!isSeparator ·) := by
  rw [words, ← splitOnP_flatten isSeparator line]
  exact List.flatten_filter_ne_nil

/-- A word stands in its line in one piece. -/
theorem isInfix_of_mem_words {line w : List Char} (h : w ∈ words line) : w <:+: line := by
  obtain ⟨piece, pieces, hsplit⟩ :=
    List.exists_cons_of_ne_nil (List.splitOnP_ne_nil isSeparator line)
  obtain ⟨hpiece, hpieces⟩ := splitOnP_isInfix isSeparator hsplit
  rw [words, hsplit] at h
  rcases List.mem_cons.1 (List.mem_of_mem_filter h) with rfl | hmem
  · exact hpiece.isInfix
  · exact hpieces w hmem

/-- The texts of the tokens of a line make up the line without its blanks. -/
theorem scanLine_flatMap (line : List Char) :
    (scanLine line).flatMap (·.2.toList) = line.filter (!isSeparator ·) := by
  have hwords : ∀ w ∈ words line, (scanWord w).flatMap (·.2.toList) = w :=
    fun w _ => scanWord_flatMap w
  rw [scanLine, List.flatMap_assoc, List.flatMap_congr hwords, List.flatMap_id', words_flatten]

/-- A token of a line is not empty, stands in the line in one piece, and has one character if it is
unknown. -/
theorem mem_scanLine {line : List Char} {lexeme : TokenKind × String} (h : lexeme ∈ scanLine line) :
    lexeme.2 ≠ "" ∧ (lexeme.1 = .unknown → lexeme.2.length = 1) ∧ lexeme.2.toList <:+: line := by
  obtain ⟨w, hw, hmem⟩ := List.mem_flatMap.1 h
  obtain ⟨hne, hunknown, hinfix⟩ := mem_scanWord hmem
  exact ⟨hne, hunknown, hinfix.trans (isInfix_of_mem_words hw)⟩

/-- A line has no more tokens than characters. -/
theorem scanLine_length_le (line : List Char) : (scanLine line).length ≤ line.length := by
  have hpositive : ∀ lexeme ∈ scanLine line, 1 ≤ lexeme.2.toList.length := by
    intro lexeme hlexeme
    rw [String.length_toList]
    exact Nat.one_le_iff_ne_zero.2 fun hzero =>
      (mem_scanLine hlexeme).1 (String.length_eq_zero_iff.1 hzero)
  calc (scanLine line).length
      ≤ ((scanLine line).map fun lexeme => lexeme.2.toList.length).sum := by
        rw [← List.length_map fun lexeme : TokenKind × String => lexeme.2.toList.length]
        exact List.length_le_sum_of_one_le _ (List.forall_mem_map.2 hpositive)
    _ = (line.filter (!isSeparator ·)).length := by
        rw [← List.length_flatMap, scanLine_flatMap]
    _ ≤ line.length := List.length_filter_le _ _

/-! ## Texts -/

section

variable {file : String} {line : Nat} {lines : List (List Char)}

/-- A token stands in the line that it names. -/
theorem mem_scanLines {t : Token} (h : t ∈ scanLines file line lines) :
    t.position.file = file ∧ ∃ number piece, t.position.line = line + number ∧
      lines[number]? = some piece ∧ t.lexeme ∈ scanLine piece := by
  induction lines generalizing line with
  | nil => cases h
  | cons first rest ih =>
    rw [scanLines_cons] at h
    rcases List.mem_append.1 h with hfirst | hrest
    · obtain ⟨lexeme, hlexeme, rfl⟩ := List.mem_map.1 hfirst
      exact ⟨rfl, 0, first, rfl, rfl, hlexeme⟩
    · obtain ⟨hfile, number, piece, hline, hpiece, hlexeme⟩ := ih hrest
      refine ⟨hfile, number + 1, piece, ?_, hpiece, hlexeme⟩
      omega

theorem line_of_mem_placed {lexemes : List (TokenKind × String)} {t : Token}
    (h : t ∈ placed file line lexemes) : t.position.line = line := by
  obtain ⟨lexeme, -, rfl⟩ := List.mem_map.1 h
  rfl

/-- No token stands in a line before the first. -/
theorem le_line_of_mem_scanLines {t : Token} (h : t ∈ scanLines file line lines) :
    line ≤ t.position.line := by
  obtain ⟨-, number, -, hline, -⟩ := mem_scanLines h
  omega

/-- Tokens come line by line. -/
theorem scanLines_pairwise (file : String) (line : Nat) (lines : List (List Char)) :
    (scanLines file line lines).Pairwise fun t u => t.position.line ≤ u.position.line := by
  induction lines generalizing line with
  | nil => exact .nil
  | cons first rest ih =>
    rw [scanLines_cons]
    refine List.pairwise_append.2 ⟨?_, ih (line + 1), ?_⟩
    · refine List.pairwise_of_forall_mem_list fun t ht u hu => ?_
      rw [line_of_mem_placed ht, line_of_mem_placed hu]
    · intro t ht u hu
      have hlater : line + 1 ≤ u.position.line := le_line_of_mem_scanLines hu
      rw [line_of_mem_placed ht]
      omega

/-- The text of the tokens on a line. -/
def lineText (tokens : List Token) (line : Nat) : List Char :=
  (tokens.filter (·.position.line = line)).flatMap (·.value.toList)

/-- The text of a line is put together from that of two parts. -/
theorem lineText_append (ts us : List Token) (line : Nat) :
    lineText (ts ++ us) line = lineText ts line ++ lineText us line := by
  rw [lineText, List.filter_append, List.flatMap_append]
  rfl

/-- Tokens of other lines add nothing to the text of a line. -/
theorem lineText_of_ne {tokens : List Token} (h : ∀ t ∈ tokens, t.position.line ≠ line) :
    lineText tokens line = [] := by
  have hnone : tokens.filter (·.position.line = line) = [] :=
    List.filter_eq_nil_iff.2 fun t ht => by simpa using h t ht
  rw [lineText, hnone]
  rfl

/-- The text of a line is that of the tokens placed there. -/
theorem lineText_placed (file : String) (line : Nat) (lexemes : List (TokenKind × String)) :
    lineText (placed file line lexemes) line = lexemes.flatMap (·.2.toList) := by
  have hall : (placed file line lexemes).filter (·.position.line = line) =
      placed file line lexemes :=
    List.filter_eq_self.2 fun t ht => decide_eq_true (line_of_mem_placed ht)
  rw [lineText, hall, placed, List.flatMap_map]

/-- The tokens of each line make up the line without its separators. -/
theorem lineText_scanLines (file : String) (line : Nat) {number : Nat} {piece : List Char}
    (h : lines[number]? = some piece) :
    lineText (scanLines file line lines) (line + number) = piece.filter (!isSeparator ·) := by
  induction lines generalizing line number with
  | nil => cases h
  | cons first rest ih =>
    rw [scanLines_cons, lineText_append]
    cases number with
    | zero =>
      obtain rfl : first = piece := Option.some.inj h
      have hlater : lineText (scanLines file (line + 1) rest) line = [] := by
        refine lineText_of_ne fun t ht => ?_
        have hle : line + 1 ≤ t.position.line := le_line_of_mem_scanLines ht
        omega
      rw [Nat.add_zero, lineText_placed, scanLine_flatMap, hlater, List.append_nil]
    | succ number =>
      have hearlier : lineText (placed file line (scanLine first)) (line + (number + 1)) = [] := by
        refine lineText_of_ne fun t ht => ?_
        rw [line_of_mem_placed ht]
        omega
      have hnumber : line + (number + 1) = line + 1 + number := by omega
      rw [hearlier, List.nil_append, hnumber]
      exact ih (line + 1) h

end

/-- A text has no more tokens than characters. -/
theorem tokenize_length_le (source file : String) :
    (tokenize source file).length ≤ source.length := by
  have hlines : (source.toList.splitOn '\n').flatten.length ≤ source.length := by
    rw [← String.length_toList, List.splitOn, splitOnP_flatten]
    exact List.length_filter_le _ _
  rw [← List.length_map Token.lexeme, tokenize_eq, scanLines_lexemes, List.length_flatMap]
  refine Nat.le_trans (List.sum_le_sum fun line _ => scanLine_length_le line) ?_
  rwa [← List.length_flatten]

/-- **Conservation**: every token is a piece of the line that it names, with at least one character,
and with exactly one if the language does not know it. The tokens follow the lines of the text, and
those of each line, put together, are the line without its separators. -/
theorem tokenize_conserves (source file : String) :
    (∀ t ∈ tokenize source file,
      t.position.file = file ∧ t.value ≠ "" ∧ (t.kind = .unknown → t.value.length = 1) ∧
      ∃ number piece, t.position.line = number + 1 ∧
        (source.toList.splitOn '\n')[number]? = some piece ∧ t.value.toList <:+: piece) ∧
    (tokenize source file).Pairwise (fun t u => t.position.line ≤ u.position.line) ∧
    ∀ number piece, (source.toList.splitOn '\n')[number]? = some piece →
      lineText (tokenize source file) (number + 1) = piece.filter (!isSeparator ·) := by
  rw [tokenize_eq]
  refine ⟨fun t ht => ?_, scanLines_pairwise file 1 _, fun number piece hpiece => ?_⟩
  · obtain ⟨hfile, number, piece, hline, hpiece, hlexeme⟩ := mem_scanLines ht
    obtain ⟨hne, hunknown, hinfix⟩ := mem_scanLine hlexeme
    refine ⟨hfile, hne, hunknown, number, piece, ?_, hpiece, hinfix⟩
    omega
  · have htext := lineText_scanLines file 1 hpiece
    rw [Nat.add_comm 1 number] at htext
    exact htext

end FrontEnd
