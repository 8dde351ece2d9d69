import FrontEnd.Proofs.Lexing.Classes
import Mathlib.Data.List.Basic
import Mathlib.Data.List.Find
import Mathlib.Data.List.TakeWhile

/-!
# The longest match by the first character

The longest match of the rules, with ties for the later rule, is the token that the first character
tells (`nextLexeme_eq_classLexeme`):

- in front of a letter only rules of letters match, and none of them beyond the run of letters, so a
  run is a word of its own kind or an identifier (`longest_letters`);
- in front of a digit only numbers match (`longest_digits`);
- in front of anything else only the marks that begin with it match (`nextLexeme_mark`).
-/

namespace FrontEnd

namespace Pattern

/-- The spellings that a pattern lists. -/
def spellings : Pattern → List String
  | oneOf spellings => spellings
  | _ => []

/-- Whether the pattern has a match that begins with `c`. -/
def mayBegin (c : Char) : Pattern → Bool
  | letters => c.isAlpha
  | digits | decimal => c.isDigit
  | oneOf spellings => spellings.any (·.toList.head? == some c)

/-- No letter is a digit. -/
theorem isDigit_of_isAlpha {c : Char} (h : c.isAlpha = true) : c.isDigit = false := by
  have hletter : (c.isUpper || c.isLower) = true := h
  have hnine : '9'.val < c.val := by
    obtain hupper | hlower := (Bool.or_eq_true_iff).1 hletter
    · exact UInt32.lt_of_lt_of_le (by decide) (of_decide_eq_true hupper).1
    · have hlower : (decide ('a'.val ≤ c.val) && decide (c.val ≤ 'z'.val)) = true := hlower
      rw [Bool.and_eq_true, decide_eq_true_eq] at hlower
      exact UInt32.lt_of_lt_of_le (by decide) hlower.1
  have hdigit : c.isDigit = (decide ('0'.val ≤ c.val) && decide (c.val ≤ '9'.val)) := rfl
  rw [hdigit, decide_eq_false (UInt32.not_le.2 hnine), Bool.and_false]

/-- A rule that lists spellings matches one of them in full or nothing. -/
theorem matchLength_oneOf_cases (spellings : List String) (cs : List Char) :
    (oneOf spellings).matchLength cs = 0 ∨
      ∃ w ∈ spellings, w.toList <+: cs ∧ (oneOf spellings).matchLength cs = w.toList.length := by
  rw [matchLength]
  cases h : spellings.find? (·.toList.isPrefixOf cs) with
  | none => exact .inl rfl
  | some w =>
    have hpre := List.find?_some h
    refine .inr ⟨w, List.mem_of_find?_eq_some h, List.isPrefixOf_iff_prefix.1 hpre, ?_⟩
    exact String.length_toList.symm

theorem runLength_cons_of_false {p : Char → Bool} {c : Char} (h : p c = false) (cs : List Char) :
    runLength p (c :: cs) = 0 := by
  rw [runLength, List.takeWhile_cons, h]
  rfl

theorem decimalLength_cons_of_false {c : Char} (h : c.isDigit = false) (cs : List Char) :
    decimalLength (c :: cs) = 0 := by
  rw [decimalLength, runLength_cons_of_false h]

/-- A rule matches nothing in front of a character that it cannot begin with. -/
theorem matchLength_eq_zero {p : Pattern} {c : Char} (h : p.mayBegin c = false) (cs : List Char) :
    p.matchLength (c :: cs) = 0 := by
  cases p with
  | letters => exact runLength_cons_of_false h cs
  | digits => exact runLength_cons_of_false h cs
  | decimal => exact decimalLength_cons_of_false h cs
  | oneOf spellings =>
    obtain hzero | ⟨w, hw, hpre, hlength⟩ := matchLength_oneOf_cases spellings (c :: cs)
    · exact hzero
    · rw [hlength, List.length_eq_zero_iff]
      -- A spelling that is not empty would begin with `c`.
      cases hchars : w.toList with
      | nil => rfl
      | cons d ds =>
        rw [hchars, List.cons_prefix_cons] at hpre
        have hhead : (w.toList.head? == some c) = true := by
          rw [hchars, hpre.1, List.head?_cons, beq_self_eq_true]
        exact absurd (List.any_eq_true.2 ⟨w, hw, hhead⟩) (Bool.not_eq_true _ ▸ h)

end Pattern

open Pattern

/-! ## The winning rule -/

/-- A shorter match does not replace a longer one. -/
theorem betterMatch_of_lt {cs : List Char} {k : TokenKind} {n : Nat} {rule : Pattern × TokenKind}
    (h : rule.1.matchLength cs < n) : betterMatch cs (some (k, n)) rule = some (k, n) := by
  refine if_neg fun hbetter => ?_
  exact absurd (hbetter.2 (k, n) rfl) (Nat.not_le.2 h)

/-- So a longest match outlasts all shorter ones. -/
theorem foldl_betterMatch_of_lt {cs : List Char} {k : TokenKind} {n : Nat} :
    ∀ {rs : List (Pattern × TokenKind)}, (∀ r ∈ rs, r.1.matchLength cs < n) →
      rs.foldl (betterMatch cs) (some (k, n)) = some (k, n)
  | [], _ => rfl
  | r :: rs, h => by
    rw [List.foldl_cons, betterMatch_of_lt (h r List.mem_cons_self)]
    exact foldl_betterMatch_of_lt fun r' hr' => h r' (List.mem_cons_of_mem _ hr')

/-- Where no rule matches, none wins. -/
theorem foldl_betterMatch_none {cs : List Char} :
    ∀ {rs : List (Pattern × TokenKind)}, (∀ r ∈ rs, r.1.matchLength cs = 0) →
      rs.foldl (betterMatch cs) none = none
  | [], _ => rfl
  | r :: rs, h => by
    have hr : betterMatch cs none r = none :=
      if_neg fun hbetter => Nat.ne_of_gt hbetter.1 (h r List.mem_cons_self)
    rw [List.foldl_cons, hr]
    exact foldl_betterMatch_none fun r' hr' => h r' (List.mem_cons_of_mem _ hr')

/-! ## Rules that list spellings -/

/-- The characters that begin a mark. -/
def markBegins : List Char :=
  ['<', '>', '=', '!', '+', '-', '*', '/', '(', ')', '[', ']', '\x7b', '\x7d', ';', ':', ',']

/-- The first three rules are the open ones. All others list spellings. -/
theorem rules_eq : rules =
    (.letters, .identifier) :: (.digits, .number) :: (.decimal, .float) :: rules.drop 3 := rfl

/-- Behind the first three, every rule lists its spellings. -/
theorem spelled_of_mem : ∀ r ∈ rules.drop 3, r.1 = .oneOf r.1.spellings := by
  simp [rules, TokenKind.reserved, spellings]

/-- Reserved words are words: all their characters are letters. -/
theorem isAlpha_of_mem_wordKinds {w : String} (hw : w ∈ wordKinds.map Prod.fst) :
    ∀ c ∈ w.toList, c.isAlpha = true := by
  have hall : ∀ w ∈ wordKinds.map Prod.fst, w.toList.all Char.isAlpha = true := by decide
  exact List.all_eq_true.1 (hall w hw)

/-- No mark begins with a letter or a digit. -/
theorem not_alphanum_of_mem_markBegins {c : Char} (h : c ∈ markBegins) :
    c.isAlpha = false ∧ c.isDigit = false := by
  have hall : markBegins.all (!·.isAlphanum) = true := by decide
  have hc := List.all_eq_true.1 hall c h
  rw [Bool.not_eq_true', Char.isAlphanum, Bool.or_eq_false_iff] at hc
  exact hc

section

variable {r : Pattern × TokenKind} (hr : r ∈ rules.drop 3)

include hr

/-- A spelling is a word with a kind of its own, or it begins with a mark. -/
theorem spelling_cases {w : String} (hw : w ∈ r.1.spellings) :
    w ∈ wordKinds.map Prod.fst ∨ ∃ c cs, w.toList = c :: cs ∧ c ∈ markBegins := by
  have hall : ∀ r ∈ rules.drop 3, ∀ w ∈ r.1.spellings,
      w ∈ wordKinds.map Prod.fst ∨ w.toList.head?.any markBegins.contains = true := by
    decide
  obtain hword | hmark := hall r hr w hw
  · exact .inl hword
  · obtain ⟨c, hc, hmark⟩ := (Option.any_eq_true _ _).1 hmark
    obtain ⟨cs, hcs⟩ := List.head?_eq_some_iff.1 hc
    exact .inr ⟨c, cs, hcs, List.contains_iff_mem.1 hmark⟩

/-- What a spelling begins with tells whether it is a word or a mark. -/
theorem mayBegin_of_mem {c : Char} (h : r.1.mayBegin c = true) :
    c.isAlpha = true ∨ c ∈ markBegins := by
  rw [spelled_of_mem r hr] at h
  obtain ⟨w, hw, hhead⟩ := List.any_eq_true.1 h
  have hhead : w.toList.head? = some c := eq_of_beq hhead
  obtain hword | ⟨d, ds, hds, hmark⟩ := spelling_cases hr hw
  · exact .inl (isAlpha_of_mem_wordKinds hword c (List.mem_of_head? hhead))
  · rw [hds] at hhead
    cases hhead
    exact .inr hmark

/-- A spelling that begins with a letter is a reserved word. -/
theorem mem_wordKinds_of_begins {w : String} (hw : w ∈ r.1.spellings) {c : Char}
    {cs : List Char} (hc : c.isAlpha = true) (hpre : w.toList <+: c :: cs) :
    w ∈ wordKinds.map Prod.fst := by
  obtain hword | ⟨d, ds, hds, hmark⟩ := spelling_cases hr hw
  · exact hword
  · rw [hds, List.cons_prefix_cons] at hpre
    rw [hpre.1] at hmark
    exact Bool.noConfusion (hc.symm.trans (not_alphanum_of_mem_markBegins hmark).1)

end

/-! ## Runs of letters -/

/-- The words with a kind of their own win against the identifiers. -/
theorem longest_word : ∀ w ∈ wordKinds.map Prod.fst,
    longest w.toList = some (wordKind w.toList, w.toList.length) := by
  decide

/-- No rule of words takes a whole run that is not one of them. -/
theorem matchLength_lt_of_notMem {c : Char} {run : List Char} (hc : c.isAlpha = true)
    (hword : String.ofList (c :: run) ∉ wordKinds.map Prod.fst) :
    ∀ r ∈ rules.tail, r.1.matchLength (c :: run) < (c :: run).length := by
  have hdigit : c.isDigit = false := isDigit_of_isAlpha hc
  have hpos : 0 < (c :: run).length := Nat.succ_pos _
  intro r hr
  rw [rules_eq, List.tail_cons, List.mem_cons, List.mem_cons] at hr
  obtain rfl | rfl | hr := hr
  · rwa [matchLength_eq_zero (p := .digits) hdigit]
  · rwa [matchLength_eq_zero (p := .decimal) hdigit]
  · obtain hzero | ⟨w, hw, hpre, hlength⟩ := matchLength_oneOf_cases r.1.spellings (c :: run)
    · rwa [spelled_of_mem r hr, hzero]
    · rw [spelled_of_mem r hr, hlength]
      -- A spelling as long as the run would be the run itself.
      refine Nat.lt_of_le_of_ne hpre.length_le fun heq => ?_
      have hrun : w.toList = c :: run := hpre.eq_of_length heq
      rw [← hrun, String.ofList_toList] at hword
      exact hword (mem_wordKinds_of_begins hr hw hc hpre)

/-- A run of letters that is not reserved is an identifier. -/
theorem wordKind_of_notMem {run : List Char}
    (hword : String.ofList run ∉ wordKinds.map Prod.fst) : wordKind run = .identifier := by
  have hlookup : wordKinds.lookup (String.ofList run) = none := by
    rw [List.lookup_eq_none_iff]
    intro entry hentry
    refine bne_iff_ne.2 fun heq => hword ?_
    rw [heq]
    exact List.mem_map_of_mem hentry
  rw [wordKind, hlookup, Option.getD_none]

/-- Of a run of letters alone, the longest match is the whole of it. -/
theorem longest_run {c : Char} {run : List Char} (h : ∀ d ∈ c :: run, d.isAlpha = true) :
    longest (c :: run) = some (wordKind (c :: run), (c :: run).length) := by
  by_cases hword : String.ofList (c :: run) ∈ wordKinds.map Prod.fst
  · have hlongest := longest_word _ hword
    rwa [String.toList_ofList] at hlongest
  · -- No keyword is the whole run, so only the rule for identifiers goes to its end.
    have hletters : betterMatch (c :: run) none (.letters, .identifier) =
        some (.identifier, (c :: run).length) := by
      have hlength : runLength Char.isAlpha (c :: run) = (c :: run).length := by
        rw [runLength, List.takeWhile_eq_self_iff.2 h]
      rw [betterMatch, matchLength, hlength]
      exact if_pos ⟨Nat.succ_pos _, fun b hb => absurd hb (Option.not_mem_none b)⟩
    have hothers := matchLength_lt_of_notMem (h c List.mem_cons_self) hword
    rw [longest, wordKind_of_notMem hword, rules_eq, List.foldl_cons, hletters]
    exact foldl_betterMatch_of_lt hothers

/-- Nothing but the run of letters at the front matters. -/
theorem matchLength_takeWhile {c : Char} (hc : c.isAlpha = true) (cs : List Char) :
    ∀ r ∈ rules, r.1.matchLength (c :: cs) =
      r.1.matchLength ((c :: cs).takeWhile Char.isAlpha) := by
  have hdigit : c.isDigit = false := isDigit_of_isAlpha hc
  have hrun : (c :: cs).takeWhile Char.isAlpha = c :: cs.takeWhile Char.isAlpha :=
    List.takeWhile_cons_of_pos hc
  intro r hr
  rw [rules_eq, List.mem_cons, List.mem_cons, List.mem_cons] at hr
  obtain rfl | rfl | rfl | hr := hr
  · rw [matchLength, matchLength, runLength, runLength, List.takeWhile_idem]
  · rw [hrun, matchLength_eq_zero (p := .digits) hdigit, matchLength_eq_zero (p := .digits) hdigit]
  · rw [hrun, matchLength_eq_zero (p := .decimal) hdigit,
      matchLength_eq_zero (p := .decimal) hdigit]
  · have hsame : ∀ w ∈ r.1.spellings, w.toList.isPrefixOf (c :: cs) =
        w.toList.isPrefixOf ((c :: cs).takeWhile Char.isAlpha) := by
      intro w hw
      rw [Bool.eq_iff_iff, List.isPrefixOf_iff_prefix, List.isPrefixOf_iff_prefix]
      refine ⟨fun hpre => ?_, fun hpre => hpre.trans (List.takeWhile_prefix _)⟩
      -- A spelling that begins with a letter is a keyword, so it ends within the run.
      have hletters := isAlpha_of_mem_wordKinds (mem_wordKinds_of_begins hr hw hc hpre)
      obtain ⟨rest, hrest⟩ := hpre
      rw [← hrest, List.takeWhile_append_of_pos hletters]
      exact List.prefix_append _ _
    rw [spelled_of_mem r hr, matchLength, matchLength, List.find?_congr hsame]

/-- In front of a letter, the longest match is the run of letters there, whatever follows. -/
theorem longest_letters {c : Char} (hc : c.isAlpha = true) (cs : List Char) :
    longest (c :: cs) = some (wordKind ((c :: cs).takeWhile Char.isAlpha),
      ((c :: cs).takeWhile Char.isAlpha).length) := by
  have hrun : (c :: cs).takeWhile Char.isAlpha = c :: cs.takeWhile Char.isAlpha :=
    List.takeWhile_cons_of_pos hc
  -- So the rules may as well be run on the run of letters alone.
  have hsame : longest (c :: cs) = longest ((c :: cs).takeWhile Char.isAlpha) := by
    refine List.foldl_ext _ _ _ fun best r hr => ?_
    rw [betterMatch, betterMatch, matchLength_takeWhile hc cs r hr]
  have hletters : ∀ d ∈ c :: cs.takeWhile Char.isAlpha, d.isAlpha = true := by
    rw [← hrun]
    exact fun d hd => List.mem_takeWhile_imp hd
  rw [hsame, hrun, longest_run hletters]

/-! ## Numbers -/

/-- No spelling begins with a digit. -/
theorem matchLength_of_isDigit {c : Char} (hc : c.isDigit = true) (cs : List Char) :
    ∀ r ∈ rules.drop 3, r.1.matchLength (c :: cs) = 0 := by
  intro r hr
  refine matchLength_eq_zero (Bool.eq_false_iff.2 fun h => ?_) cs
  obtain hletter | hmark := mayBegin_of_mem hr h
  · exact Bool.noConfusion (hc.symm.trans (isDigit_of_isAlpha hletter))
  · exact Bool.noConfusion (hc.symm.trans (not_alphanum_of_mem_markBegins hmark).2)

/-- A decimal is as long as its two runs of digits and its point, if there is a fraction. -/
theorem decimalLength_eq {cs : List Char} (hpos : 0 < runLength Char.isDigit cs) :
    decimalLength cs =
      if fractionDigits (cs.dropWhile Char.isDigit) = [] then 0
      else runLength Char.isDigit cs + 1 +
        (fractionDigits (cs.dropWhile Char.isDigit)).length := by
  obtain ⟨n, hn⟩ := Nat.exists_eq_add_one_of_ne_zero (Nat.ne_of_gt hpos)
  rw [decimalLength, hn]
  split
  · next whole rest hwhole hrest =>
    cases hwhole
    have hfraction : fractionDigits (cs.dropWhile Char.isDigit) = rest.takeWhile Char.isDigit := by
      rw [hrest, fractionDigits]
    rw [hfraction, runLength]
    cases rest.takeWhile Char.isDigit with
    | nil => rfl
    | cons d ds => rfl
  · next hpoint =>
    -- Without a point behind the digits there is no fraction.
    have hfraction : fractionDigits (cs.dropWhile Char.isDigit) = [] := by
      unfold fractionDigits
      split
      · next rest hrest => exact absurd hrest (hpoint n rest rfl)
      · rfl
    rw [hfraction, if_pos rfl]

/-- Where a fraction stands, it wins against its whole digits. -/
theorem betterMatch_decimal {cs : List Char} (hpos : 0 < runLength Char.isDigit cs) :
    betterMatch cs (some (.number, runLength Char.isDigit cs)) (.decimal, .float) =
      some (numberLexeme cs) := by
  have hlength := decimalLength_eq hpos
  unfold numberLexeme
  dsimp only
  split
  · next h =>
    rw [if_pos h] at hlength
    exact if_neg fun hbetter => Nat.ne_of_gt hbetter.1 hlength
  · next h =>
    rw [if_neg h] at hlength
    show _ = some (TokenKind.float, runLength Char.isDigit cs + 1 + _)
    rw [← hlength]
    -- With a fraction the float is longer than the digits alone.
    refine if_pos ⟨?_, fun b hb => ?_⟩
    · show 0 < decimalLength cs
      omega
    · cases hb
      show runLength Char.isDigit cs ≤ decimalLength cs
      omega

/-- In front of a digit, a number wins, and a float if digits follow the point. -/
theorem longest_digits {c : Char} (hc : c.isDigit = true) (cs : List Char) :
    longest (c :: cs) = some (numberLexeme (c :: cs)) := by
  have hletter : c.isAlpha = false :=
    Bool.eq_false_iff.2 fun h => Bool.noConfusion (hc.symm.trans (isDigit_of_isAlpha h))
  have hpos : 0 < runLength Char.isDigit (c :: cs) := by
    rw [runLength, List.takeWhile_cons_of_pos hc]
    exact Nat.succ_pos _
  have hletters : betterMatch (c :: cs) none (.letters, .identifier) = none :=
    if_neg fun hbetter =>
      Nat.ne_of_gt hbetter.1 (matchLength_eq_zero (p := .letters) hletter cs)
  have hdigits : betterMatch (c :: cs) none (.digits, .number) =
      some (.number, runLength Char.isDigit (c :: cs)) :=
    if_pos ⟨hpos, fun b hb => absurd hb (Option.not_mem_none b)⟩
  rw [longest, rules_eq, List.foldl_cons, hletters, List.foldl_cons, hdigits, List.foldl_cons,
    betterMatch_decimal hpos]
  refine foldl_betterMatch_of_lt fun r hr => ?_
  rw [matchLength_of_isDigit hc cs r hr]
  exact numberLexeme_pos hc cs

/-! ## Operators and marks -/

/-- No rule matches in front of a character that nothing begins with. -/
theorem matchLength_of_notMem {c : Char} (hletter : c.isAlpha = false) (hdigit : c.isDigit = false)
    (hmark : c ∉ markBegins) (cs : List Char) : ∀ r ∈ rules, r.1.matchLength (c :: cs) = 0 := by
  intro r hr
  rw [rules_eq, List.mem_cons, List.mem_cons, List.mem_cons] at hr
  obtain rfl | rfl | rfl | hr := hr
  · exact matchLength_eq_zero (p := .letters) hletter cs
  · exact matchLength_eq_zero (p := .digits) hdigit cs
  · exact matchLength_eq_zero (p := .decimal) hdigit cs
  · refine matchLength_eq_zero (Bool.eq_false_iff.2 fun h => ?_) cs
    obtain hc | hc := mayBegin_of_mem hr h
    · exact Bool.noConfusion (hc.symm.trans hletter)
    · exact hmark hc

/-- The characters of which the next one may make a longer mark. -/
def doubleBegins : List Char := ['<', '>', '-', '=', '!']

/-- A character that begins a mark of two is a mark of one, if the second is not there. -/
theorem nextLexeme_doubleBegins {c : Char} {rest : List Char} (hc : c ∈ doubleBegins)
    (hnext : ∀ d, doubleMark c d ≠ none → [d].isPrefixOf rest = false) :
    nextLexeme (c :: rest) = (singleMark c, 1) := by
  have hless : "<".length = 1 := rfl
  have hgreater : ">".length = 1 := rfl
  have hdash : "-".length = 1 := rfl
  simp only [doubleBegins, List.mem_cons, List.not_mem_nil, or_false] at hc
  obtain rfl | rfl | rfl | rfl | rfl := hc
  all_goals
    simp [nextLexeme, longest, rules, TokenKind.reserved, betterMatch, matchLength, runLength,
      decimalLength, hless, hgreater, hdash, hnext, doubleMark, singleMark]

/-- A mark of two characters wins over its first character. -/
theorem nextLexeme_double {c d : Char} {kind : TokenKind} (h : doubleMark c d = some kind)
    (rest : List Char) : nextLexeme (c :: d :: rest) = (kind, 2) := by
  unfold doubleMark at h
  split at h
  all_goals cases h
  all_goals rfl

/-- The next character is none that would make a longer mark. -/
theorem isPrefixOf_eq_false {c d : Char} {rest : List Char}
    (h : rest.head?.bind (doubleMark c) = none) (hd : doubleMark c d ≠ none) :
    [d].isPrefixOf rest = false := by
  cases rest with
  | nil => rfl
  | cons e rest =>
    have hne : d ≠ e := fun heq => hd (heq ▸ h)
    rw [List.isPrefixOf, beq_eq_false_iff_ne.2 hne, Bool.false_and]

/-- In front of no mark of two characters, a mark of one is found, or an unknown character. -/
theorem nextLexeme_single {c : Char} {rest : List Char} (hletter : c.isAlpha = false)
    (hdigit : c.isDigit = false) (h : rest.head?.bind (doubleMark c) = none) :
    nextLexeme (c :: rest) = (singleMark c, 1) := by
  have hnext : ∀ d, doubleMark c d ≠ none → [d].isPrefixOf rest = false :=
    fun _ => isPrefixOf_eq_false h
  by_cases hdouble : c ∈ doubleBegins
  · exact nextLexeme_doubleBegins hdouble hnext
  · -- What is left are marks that begin no longer one.
    simp only [doubleBegins, List.mem_cons, List.not_mem_nil, or_false, not_or] at hdouble
    obtain ⟨hless, hgreater, hdash, hequals, hbang⟩ := hdouble
    unfold singleMark
    split
    case h_1 => exact absurd rfl hless
    case h_2 => exact absurd rfl hgreater
    case h_4 => exact absurd rfl hdash
    case h_16 =>
      -- All characters that begin a mark have been excluded.
      have hmark : c ∉ markBegins := by
        simp only [markBegins, List.mem_cons, List.not_mem_nil, or_false, not_or]
        and_intros <;> assumption
      have hzero := matchLength_of_notMem hletter hdigit hmark rest
      rw [nextLexeme, longest, foldl_betterMatch_none hzero]
      rfl
    all_goals rfl

/-- In front of a mark, the next token is read off at most two characters. -/
theorem nextLexeme_mark {c : Char} (hletter : c.isAlpha = false) (hdigit : c.isDigit = false)
    (rest : List Char) : nextLexeme (c :: rest) = markLexeme c rest := by
  unfold markLexeme
  split
  · next kind h =>
    obtain ⟨d, hd, hkind⟩ := Option.bind_eq_some_iff.1 h
    obtain ⟨ds, rfl⟩ := List.head?_eq_some_iff.1 hd
    exact nextLexeme_double hkind ds
  · next h => exact nextLexeme_single hletter hdigit h

/-- **Longest match**: the token that the rules find is the one that the class of its first
character tells. -/
theorem nextLexeme_eq_classLexeme (c : Char) (cs : List Char) :
    nextLexeme (c :: cs) = classLexeme c cs := by
  unfold classLexeme
  split
  · next hletter =>
    rw [nextLexeme, longest_letters hletter]
    rfl
  · next hletter =>
    split
    · next hdigit =>
      rw [nextLexeme, longest_digits hdigit]
      rfl
    · next hdigit =>
      exact nextLexeme_mark (Bool.eq_false_iff.2 hletter) (Bool.eq_false_iff.2 hdigit) cs

end FrontEnd
