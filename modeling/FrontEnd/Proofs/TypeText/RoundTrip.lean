import FrontEnd.Proofs.Lexing.Letters
import FrontEnd.Proofs.Parsing.Completeness
import FrontEnd.Proofs.TypeText.Names

/-!
# Types are read back from their text

The text of a type is shown in faults, but it is also a phrase of the language: scanned and parsed,
it is the type again, without the defaults that it does not show. The text is followed from its end
to its front, with any tokens that meet a row behind it, so that array brackets around function
types and results behind results need no care of their own.

- `Ty.bare`: a type without its defaults.
- `Ty.isWritable`: all names in a type are such as the language reads them.
- `Spells`: a text is scanned to tokens that meet a row, with a law for each sort of lexeme.
- `Ty.spells_text`: the text of a writable type spells its yield.
- `parse_text`: so parsing the text answers the type.
-/

namespace FrontEnd

/-! ## Types without defaults -/

mutual

/-- The type without the defaults of its parameters, at any depth. -/
def Ty.bare : Ty → Ty
  | .prim name depth => .prim name depth
  | .fn params result depth => .fn (Params.bare params) result.bare depth

/-- The parameters without their defaults, in the same order. -/
def Params.bare : List Param → List Param
  | [] => []
  | ⟨name, type, _⟩ :: params => ⟨name, type.bare, none⟩ :: Params.bare params

end

theorem Params.bare_cons (p : Param) (params : List Param) :
    Params.bare (p :: params) = ⟨p.name, p.type.bare, none⟩ :: Params.bare params := by
  obtain ⟨name, type, default?⟩ := p
  rfl

/-! ## Types that can be written -/

/-- Whether a text is a word without a meaning of its own, so that it can name something. -/
def isName (text : String) : Bool := isWord text && !(wordKinds.map Prod.fst).contains text

/-- The primitive types that can be written. -/
def Ty.primitiveNames : List String := ["int", "float", "bool", "none"]

/-- Whether a type can be written: its primitive types are those of the language, and its parameters
have names. -/
def Ty.isWritable : Ty → Bool := Ty.namesAll Ty.primitiveNames.contains isName

/-! ## Texts and the rows they spell -/

/-- Whether a text is scanned to tokens that meet a row, wherever it stands. -/
def Spells (cs : List Char) (row : List Terminal) : Prop :=
  ∀ file line, Reads row (scan file line 0 cs)

/-- Whether a text does not go on with a letter. -/
def EndsWord (cs : List Char) : Prop := ∀ c ∈ cs.head?, c.isAlpha = false

theorem endsWord_nil : EndsWord [] := fun c hc => absurd hc (Option.not_mem_none c)

theorem endsWord_cons {c : Char} (hc : c.isAlpha = false) (cs : List Char) :
    EndsWord (c :: cs) := by
  rintro _ ⟨⟩
  exact hc

theorem endsWord_replicate (depth : Nat) {cs : List Char} (hcs : EndsWord cs) :
    EndsWord (List.replicate depth ']' ++ cs) := by
  cases depth with
  | zero => exact hcs
  | succ depth => exact endsWord_cons (by decide) _

theorem scan_lexeme (file : String) (line : Nat) {c : Char} (hc : isBreak c = false)
    (cs : List Char) :
    scan file line 0 (c :: cs) =
      ⟨(classLexeme c cs).1, String.ofList ((c :: cs).take (classLexeme c cs).2), ⟨line, file⟩⟩ ::
        scan file line 0 ((c :: cs).drop (classLexeme c cs).2) := by
  have hend : BehindWord [] := fun c hc => absurd hc (Option.not_mem_none c)
  have h := scan_word file line (w := cs) hc hend
  rwa [List.append_nil, List.append_nil] at h

/-- The marks in the text of a type. -/
def typeMarks : List (Char × TokenKind) :=
  [('[', .openBracket), (']', .closeBracket), ('(', .openParen), (')', .closeParen), (':', .colon),
    (',', .comma)]

theorem classLexeme_typeMark {c : Char} {kind : TokenKind} (h : (c, kind) ∈ typeMarks)
    (cs : List Char) : isBreak c = false ∧ classLexeme c cs = (kind, 1) := by
  simp only [typeMarks, List.mem_cons, Prod.mk.injEq, List.not_mem_nil, or_false] at h
  rcases h with ⟨rfl, rfl⟩ | ⟨rfl, rfl⟩ | ⟨rfl, rfl⟩ | ⟨rfl, rfl⟩ | ⟨rfl, rfl⟩ | ⟨rfl, rfl⟩
  all_goals
    cases cs <;> exact ⟨by decide, rfl⟩

namespace Spells

variable {cs : List Char} {row : List Terminal}

theorem nil : Spells [] [] := fun _ _ => reads_nil.2 rfl

theorem space (h : Spells cs row) : Spells (' ' :: cs) row := by
  intro file line
  exact h file line

/-- A bracket, parenthesis, colon or comma is a token by itself, whatever stands behind it. -/
theorem mark (h : Spells cs row) (c : Char) (kind : TokenKind) (hc : (c, kind) ∈ typeMarks) :
    Spells (c :: cs) (.mark kind :: row) := by
  obtain ⟨hbreak, hlexeme⟩ := classLexeme_typeMark hc cs
  intro file line
  rw [scan_lexeme file line hbreak, hlexeme]
  exact Reads.cons rfl (h file line)

/-- A word is a token of its kind, if no letter follows. -/
theorem word {text : String} (htext : isWord text = true) (hcs : EndsWord cs) (h : Spells cs row) :
    Spells (text.toList ++ cs) (.word (wordKind text.toList) text :: row) := by
  intro file line
  obtain ⟨hne, hletters⟩ := isWord_iff.1 htext
  obtain ⟨c, w, hcw⟩ := List.exists_cons_of_ne_nil hne
  have hc : c.isAlpha = true := hletters c (hcw ▸ List.mem_cons_self)
  have hbreak : isBreak c = false :=
    Bool.eq_false_iff.2 fun hb => Bool.noConfusion (hc.symm.trans (isBreak_not_alphanum hb).1)
  have hrun : (c :: (w ++ cs)).takeWhile Char.isAlpha = text.toList := by
    rw [← List.cons_append, ← hcw, takeWhile_append_of_stop hcs]
    exact List.takeWhile_eq_self_iff.2 hletters
  have hlexeme : classLexeme c (w ++ cs) = (wordKind text.toList, text.toList.length) := by
    rw [classLexeme, if_pos hc, hrun]
  have hsplit : c :: (w ++ cs) = text.toList ++ cs := by rw [hcw, List.cons_append]
  rw [hcw, List.cons_append, scan_lexeme file line hbreak, hlexeme, hsplit, List.take_left,
    List.drop_left, String.ofList_toList]
  exact Reads.cons ⟨by rw [hcw], rfl⟩ (h file line)

theorem openBrackets (depth : Nat) (h : Spells cs row) :
    Spells (List.replicate depth '[' ++ cs)
      (List.replicate depth (.mark .openBracket) ++ row) := by
  induction depth with
  | zero => exact h
  | succ depth ih => exact ih.mark _ _ (by decide)

theorem closeBrackets (depth : Nat) (h : Spells cs row) :
    Spells (List.replicate depth ']' ++ cs)
      (List.replicate depth (.mark .closeBracket) ++ row) := by
  induction depth with
  | zero => exact h
  | succ depth ih => exact ih.mark _ _ (by decide)

end Spells

/-! ## The text of a type -/

theorem toList_bracketed (depth : Nat) (text : String) :
    (bracketed depth text).toList =
      List.replicate depth '[' ++ (text.toList ++ List.replicate depth ']') := by
  rw [bracketed, String.toList_append, String.toList_append, String.toList_ofList,
    String.toList_ofList, List.append_assoc]

theorem Ty.toList_text_fn (params : List Param) (result : Ty) (depth : Nat) :
    (fn params result depth).text.toList =
      List.replicate depth '[' ++ ('(' :: ((Params.text params).toList ++ ')' :: ':' :: ' ' ::
        (result.text.toList ++ List.replicate depth ']'))) := by
  rw [text, toList_bracketed]
  simp [String.toList_append]

/-- The text of a parameter in front of the rest of its list. -/
theorem Params.toList_text_cons (p : Param) (params : List Param) :
    (Params.text (p :: params)).toList =
      p.name.toList ++ ':' :: ' ' :: (p.type.text.toList ++
        if params = [] then [] else ',' :: ' ' :: (Params.text params).toList) := by
  obtain ⟨name, type, default?⟩ := p
  cases params with
  | nil => simp [Params.text, String.toList_append]
  | cons q params => simp [Params.text, String.toList_append]

theorem Params.yield_bare_cons (p : Param) (params : List Param) :
    Params.yield (Params.bare (p :: params)) =
      .word .identifier p.name :: .mark .colon :: (p.type.bare.yield ++
        if params = [] then [] else .mark .comma :: Params.yield (Params.bare params)) := by
  cases params with
  | nil => simp [bare, bare_cons, yield, Param.yield]
  | cons q params => simp [bare_cons, yield, Param.yield]

/-- A word that is no name has the kind that the language gives it, a name that of names. -/
theorem isName_iff {text : String} (h : isName text = true) :
    isWord text = true ∧ wordKind text.toList = .identifier := by
  rw [isName, Bool.and_eq_true, Bool.not_eq_true'] at h
  refine ⟨h.1, wordKind_of_notMem ?_⟩
  rw [String.ofList_toList]
  simpa using h.2

theorem Ty.isWord_of_mem_primitiveNames {name : String}
    (h : primitiveNames.contains name = true) :
    isWord name = true ∧ wordKind name.toList = .primitive := by
  have hall : ∀ name ∈ primitiveNames,
      isWord name = true ∧ wordKind name.toList = .primitive := by decide
  exact hall name (List.contains_iff_mem.1 h)

/-- What spelling a type is, in front of any text that does not go on with a letter. -/
def Ty.Spelled (t : Ty) : Prop :=
  ∀ cs row, EndsWord cs → Spells cs row → Spells (t.text.toList ++ cs) (t.bare.yield ++ row)

/-- Parameters in front of their closing parenthesis spell their yield, if their types do. -/
theorem Params.spells_text {params : List Param}
    (hparams : ∀ p ∈ params, isName p.name = true ∧ p.type.Spelled) {cs : List Char}
    {row : List Terminal} (hcs : EndsWord cs) (h : Spells cs row) :
    Spells ((Params.text params).toList ++ cs) (Params.yield (Params.bare params) ++ row) := by
  induction params with
  | nil => exact h
  | cons p params ih =>
    obtain ⟨⟨hname, htype⟩, hothers⟩ := List.forall_mem_cons.1 hparams
    obtain ⟨hword, hkind⟩ := isName_iff hname
    -- What follows the type: the end of the list, or a comma and the rest of it.
    have hrest : EndsWord ((if params = [] then [] else ',' :: ' ' ::
          (Params.text params).toList) ++ cs) ∧
        Spells ((if params = [] then [] else ',' :: ' ' :: (Params.text params).toList) ++ cs)
          ((if params = [] then [] else .mark .comma :: Params.yield (Params.bare params)) ++
            row) := by
      split
      · exact ⟨hcs, h⟩
      · exact ⟨endsWord_cons (by decide) _, (ih hothers).space.mark _ _ (by decide)⟩
    have hspelled := htype _ _ hrest.1 hrest.2
    have hcolon := hspelled.space.mark ':' .colon (by decide)
    have hentry := hcolon.word hword (endsWord_cons (by decide) _)
    rw [hkind] at hentry
    rw [Params.toList_text_cons, Params.yield_bare_cons]
    simpa only [List.append_assoc, List.cons_append] using hentry

/-- The text of a writable type spells the yield of the type without its defaults. -/
theorem Ty.spells_text {t : Ty} (ht : t.isWritable = true) : t.Spelled := by
  induction t using Ty.induction with
  | prim name depth =>
    intro cs row hcs h
    obtain ⟨hword, hkind⟩ := isWord_of_mem_primitiveNames ht
    -- The spelling is put together from its end: each step goes in front of what is there.
    have hclose := h.closeBrackets depth
    have hname := hclose.word hword (endsWord_replicate depth hcs)
    have hopen := hname.openBrackets depth
    rw [hkind] at hopen
    rw [text, toList_bracketed, bare, Ty.yield, levels]
    simpa only [List.append_assoc, List.cons_append, List.nil_append] using hopen
  | fn params result depth hparams hresult =>
    intro cs row hcs h
    obtain ⟨hwritable, hresultWritable⟩ := namesAll_fn.1 ht
    have hspelled : ∀ p ∈ params, isName p.name = true ∧ p.type.Spelled :=
      fun p hp => ⟨(hwritable p hp).1, hparams p hp (hwritable p hp).2⟩
    have hclose := h.closeBrackets depth
    have hbehind := hresult hresultWritable _ _ (endsWord_replicate depth hcs) hclose
    have hcolon := hbehind.space.mark ':' .colon (by decide)
    have hparen := hcolon.mark ')' .closeParen (by decide)
    have hlist := Params.spells_text hspelled (endsWord_cons (by decide) _) hparen
    have hopen := (hlist.mark '(' .openParen (by decide)).openBrackets depth
    rw [toList_text_fn, bare, Ty.yield, levels]
    simpa only [List.append_assoc, List.cons_append, List.nil_append] using hopen

/-- **Round trip**: parsed from its text, a writable type is itself without its defaults, and the
text is used up. -/
theorem parse_text {t : Ty} (ht : t.isWritable = true) (file : String) :
    Nonterminal.type.parse (.ofTokens (tokenize t.text file) file) =
      (.ok t.bare, ⟨[], (Cursor.ofTokens (tokenize t.text file) file).last⟩) := by
  have hspells := t.spells_text ht [] [] endsWord_nil .nil
  rw [List.append_nil, List.append_nil] at hspells
  have hreads : Reads t.bare.yield (tokenize t.text file) := hspells file 1
  have hend : Nonterminal.type.EndsBefore [] := rfl
  have hparse := Nonterminal.parse_eq_ok .type trivial hreads hend
    (Cursor.ofTokens (tokenize t.text file) file).last
  rw [List.append_nil] at hparse
  exact hparse

/-- An array of functions that take two functions, one of them with a default inside, and return a
function. -/
def nestedType : Ty :=
  .fn [⟨"f", .fn [⟨"x", .prim "int" 1, some (Factor.int 1).toExpr⟩] .noValue 1, none⟩,
      ⟨"g", .fn [] .float 0, none⟩]
    (.fn [⟨"integer", .bool, none⟩] (.prim "bool" 2) 0) 1

/-- The type is read back from its text, but for the default. -/
theorem nestedType_parsed :
    nestedType.isWritable = true ∧
      nestedType.text = "[(f: [(x: [int]): none], g: (): float): (integer: bool): [[bool]]]" ∧
      nestedType.bare ≠ nestedType ∧
      Nonterminal.type.parse (.ofTokens (tokenize nestedType.text defaultFile) defaultFile) =
        (.ok nestedType.bare,
          ⟨[], (Cursor.ofTokens (tokenize nestedType.text defaultFile) defaultFile).last⟩) := by
  refine ⟨by decide, rfl, by simp [nestedType, Ty.bare, Params.bare], ?_⟩
  exact parse_text (by decide) defaultFile

end FrontEnd
