import FrontEnd.Proofs.Lexing.Words

/-!
# Names are words of letters

Variables, parameters and primitive types are named by words of ASCII letters. Such a token is a
whole run of letters, so its kind can be told from its text alone, without the text around it.

- `isWord`: a text is one or more ASCII letters.
- `TokenKind.isNaming`: the kinds of tokens that name variables, parameters or primitive types.
- `isWord_of_mem_tokenize`: the text of such a token is a word, and of that kind wherever it stands.
-/

namespace FrontEnd

/-- Whether a text is one or more ASCII letters. -/
def isWord (text : String) : Bool := text != "" && text.toList.all Char.isAlpha

/-- A word is a text of letters that is not empty. -/
theorem isWord_iff {text : String} :
    isWord text = true ↔ text.toList ≠ [] ∧ ∀ c ∈ text.toList, c.isAlpha = true := by
  rw [isWord, Bool.and_eq_true, bne_iff_ne, List.all_eq_true, Ne, Ne, String.toList_eq_nil_iff]

/-- Whether tokens of a kind name variables, parameters or primitive types. -/
def TokenKind.isNaming : TokenKind → Bool
  | identifier => true
  | primitive => true
  | _ => false

/-- No number is a name or a reserved word. -/
theorem numberLexeme_isNaming (cs : List Char) : (numberLexeme cs).1.isNaming = false := by
  unfold numberLexeme
  dsimp only
  split <;> rfl

/-- No mark is a name or a reserved word. -/
theorem markLexeme_isNaming (c : Char) (cs : List Char) :
    (markLexeme c cs).1.isNaming = false := by
  have hnone : ∀ kind ∈ markKinds, kind.isNaming = false := by decide
  exact hnone _ (markLexeme_mem_markKinds c cs)

/-- Only a letter begins a name. -/
theorem isAlpha_of_isNaming {c : Char} {cs : List Char}
    (h : (classLexeme c cs).1.isNaming = true) : c.isAlpha = true := by
  unfold classLexeme at h
  split at h
  · assumption
  · split at h
    · rw [numberLexeme_isNaming] at h
      cases h
    · rw [markLexeme_isNaming] at h
      cases h

theorem take_classLexeme_of_isAlpha {c : Char} (hc : c.isAlpha = true) (cs : List Char) :
    (c :: cs).take (classLexeme c cs).2 = (c :: cs).takeWhile Char.isAlpha := by
  rw [classLexeme, if_pos hc]
  exact take_length_takeWhile Char.isAlpha (c :: cs)

/-- Names and reserved words are words, of the kind that their letters tell. -/
theorem isWord_of_mem_scanWord {w : List Char} {lexeme : TokenKind × String}
    (h : lexeme ∈ scanWord w) (hkind : lexeme.1.isNaming = true) :
    isWord lexeme.2 = true ∧ wordKind lexeme.2.toList = lexeme.1 := by
  rw [isWord_iff]
  revert hkind
  refine forall_mem_scanWord (fun kind text => kind.isNaming = true →
    (text ≠ [] ∧ ∀ c ∈ text, c.isAlpha = true) ∧ wordKind text = kind) ?_ w lexeme h
  intro c cs hkind
  have hc : c.isAlpha = true := isAlpha_of_isNaming hkind
  rw [take_classLexeme_of_isAlpha hc]
  refine ⟨⟨?_, fun d hd => List.mem_takeWhile_imp hd⟩, ?_⟩
  · rw [List.takeWhile_cons_of_pos hc]
    exact List.cons_ne_nil _ _
  · rw [classLexeme, if_pos hc]

/-- The name in a token is a word, and of the kind of the token. -/
theorem isWord_of_mem_tokenize {source file : String} {t : Token}
    (ht : t ∈ tokenize source file) (hkind : t.kind.isNaming = true) :
    isWord t.value = true ∧ wordKind t.value.toList = t.kind := by
  obtain ⟨w, hword⟩ := exists_scanWord_of_mem_tokenize ht
  exact isWord_of_mem_scanWord hword hkind

end FrontEnd
