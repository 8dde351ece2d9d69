import FrontEnd.Proofs.Lexing.Conservation

/-!
# The text of numerals

A number is written by digits alone, and a number with a fraction by digits, a point and digits
again. There are no signs and no powers of ten: what follows the digits is another token.

- `IsNumeral`: the texts of the two kinds of numerals.
- `isNumeral_of_mem_tokenize`: every token of these kinds has such a text.
-/

namespace FrontEnd

/-- One or more digits. -/
structure IsDigits (cs : List Char) : Prop where
  ne_nil : cs ≠ []
  digits : ∀ c ∈ cs, c.isDigit = true

/-- The texts of the numerals of each kind. -/
inductive IsNumeral : TokenKind → List Char → Prop
  | number {whole : List Char} (hwhole : IsDigits whole) : IsNumeral .number whole
  | float {whole fraction : List Char} (hwhole : IsDigits whole) (hfraction : IsDigits fraction) :
    IsNumeral .float (whole ++ '.' :: fraction)

/-- The point tells the two kinds apart. -/
theorem IsNumeral.point_mem_iff {kind : TokenKind} {text : List Char} (h : IsNumeral kind text) :
    '.' ∈ text ↔ kind = .float := by
  cases h with
  | number hwhole => exact ⟨fun hpoint => Bool.noConfusion (hwhole.digits '.' hpoint), nofun⟩
  | float _ _ => exact ⟨fun _ => rfl, fun _ => List.mem_append_cons_self⟩

/-- Whether tokens of a kind are numerals. -/
def TokenKind.isNumeral : TokenKind → Bool
  | number => true
  | float => true
  | _ => false

/-- A run of digits that begins with one is a text of digits. -/
theorem isDigits_takeWhile {c : Char} (hc : c.isDigit = true) (cs : List Char) :
    IsDigits ((c :: cs).takeWhile Char.isDigit) where
  ne_nil := by
    rw [List.takeWhile_cons_of_pos hc]
    exact List.cons_ne_nil _ _
  digits _ hd := List.mem_takeWhile_imp hd

/-- Digits behind a point are a run of them. -/
theorem fractionDigits_eq_cons {cs : List Char} (h : fractionDigits cs ≠ []) :
    ∃ rest, cs = '.' :: rest ∧ fractionDigits cs = rest.takeWhile Char.isDigit := by
  unfold fractionDigits at h ⊢
  split at h
  · next rest => exact ⟨rest, rfl, rfl⟩
  · exact absurd rfl h

/-- A number is digits, and a float digits on both sides of a point. -/
theorem isNumeral_numberLexeme {c : Char} (hc : c.isDigit = true) (cs : List Char) :
    IsNumeral (numberLexeme (c :: cs)).1 ((c :: cs).take (numberLexeme (c :: cs)).2) := by
  have hwhole := isDigits_takeWhile hc cs
  have hsplit : (c :: cs).takeWhile Char.isDigit ++ (c :: cs).dropWhile Char.isDigit = c :: cs :=
    List.takeWhile_append_dropWhile
  unfold numberLexeme
  dsimp only
  split
  · dsimp only
    rw [take_length_takeWhile]
    exact .number hwhole
  · next hfraction =>
    obtain ⟨rest, hrest, hdigits⟩ := fractionDigits_eq_cons hfraction
    rw [hdigits] at hfraction ⊢
    dsimp only
    generalize (c :: cs).takeWhile Char.isDigit = whole at *
    rw [← hsplit, hrest, Nat.add_assoc, List.take_length_add_append, Nat.add_comm,
      List.take_succ_cons, take_length_takeWhile]
    exact .float hwhole ⟨hfraction, fun _ hd => List.mem_takeWhile_imp hd⟩

/-- No word is a numeral. -/
theorem wordKind_isNumeral (run : List Char) : (wordKind run).isNumeral = false := by
  have hnone : ∀ entry ∈ wordKinds, entry.2.isNumeral = false := by decide
  rcases wordKind_cases run with hidentifier | hmem
  · rw [hidentifier]
    rfl
  · exact hnone _ hmem

/-- No mark is a numeral. -/
theorem markLexeme_isNumeral (c : Char) (cs : List Char) :
    (markLexeme c cs).1.isNumeral = false := by
  have hnone : ∀ kind ∈ markKinds, kind.isNumeral = false := by decide
  exact hnone _ (markLexeme_mem_markKinds c cs)

/-- A token of the kind of a numeral is written like one. -/
theorem isNumeral_of_mem_scanWord {w : List Char} {lexeme : TokenKind × String}
    (h : lexeme ∈ scanWord w) (hkind : lexeme.1.isNumeral = true) :
    IsNumeral lexeme.1 lexeme.2.toList := by
  revert hkind
  refine forall_mem_scanWord (fun kind text => kind.isNumeral = true → IsNumeral kind text) ?_
    w lexeme h
  intro c cs
  rw [classLexeme]
  split
  · rw [wordKind_isNumeral]
    exact nofun
  · split
    · next hdigit => exact fun _ => isNumeral_numberLexeme hdigit cs
    · rw [markLexeme_isNumeral]
      exact nofun

/-- A numeral of a source text is digits, with a point among them or without. -/
theorem isNumeral_of_mem_tokenize {source file : String} {t : Token}
    (ht : t ∈ tokenize source file) (hkind : t.kind.isNumeral = true) :
    IsNumeral t.kind t.value.toList := by
  obtain ⟨w, hword⟩ := exists_scanWord_of_mem_tokenize ht
  exact isNumeral_of_mem_scanWord hword hkind

end FrontEnd
