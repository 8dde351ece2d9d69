import FrontEnd.Proofs.Lexing.Numerals
import FrontEnd.Proofs.Stages.Diagnostics

/-!
# Numeric literals of source programs

The numerals that a source text can hold are those that the readers of numbers accept, but for one
reason: an integer can be too large.

- `readInt64?_of_isDigits`: digits are read as their value if 63 bits hold it.
- `readBinary64?_of_decimal`: digits with a point are always read, and as a number that is not
  negative.
- `checkSource_numerals`: so a text is rejected for a numeral only if that is an integer beyond
  63 bits, and all numbers in an accepted program are in range, wherever they stand.
-/

namespace FrontEnd

/-! ## Integers -/

theorem readNat?_of_isDigits {cs : List Char} (h : IsDigits cs) :
    readNat? cs = some (natOfDigits cs) :=
  if_pos ⟨h.ne_nil, List.all_eq_true.2 h.digits⟩

theorem readInt?_of_isDigits {cs : List Char} (h : IsDigits cs) :
    readInt? cs = some (natOfDigits cs : Int) := by
  unfold readInt?
  split
  · exact Bool.noConfusion (h.digits '-' List.mem_cons_self)
  · exact Bool.noConfusion (h.digits '+' List.mem_cons_self)
  · rw [readNat?_of_isDigits h]
    rfl

/-- Digits are read as an integer if and only if 63 bits hold their value. -/
theorem readInt64?_of_isDigits {text : String} (h : IsDigits text.toList) :
    readInt64? text =
      if natOfDigits text.toList < 2 ^ 63 then some (natOfDigits text.toList : Int) else none := by
  have hrange : Int64Range (natOfDigits text.toList) ↔ natOfDigits text.toList < 2 ^ 63 := by
    unfold Int64Range
    omega
  rw [readInt64?, readInt?_of_isDigits h, Option.filter_some]
  simp only [decide_eq_true_eq, hrange]

/-! ## Doubles -/

namespace Binary64

/-- A double without a sign, and not beyond infinity, is a number that is not negative. -/
theorem ofMagnitude_isNumber {magnitude : Nat} (h : magnitude ≤ infiniteMagnitude) :
    (ofMagnitude false magnitude).isNaN = false ∧
      (ofMagnitude false magnitude).isNegative = false := by
  have hsign : infiniteMagnitude < Nat.pow 2 63 := by decide
  have hword : Nat.pow 2 63 < 2 ^ 64 := by decide
  have hlt : magnitude < Nat.pow 2 63 := Nat.lt_of_le_of_lt h hsign
  have hbits : (ofMagnitude false magnitude).bits.toNat = magnitude := by
    rw [ofMagnitude, if_neg Bool.false_ne_true, Nat.zero_add]
    exact UInt64.toNat_ofNat_of_lt (Nat.lt_trans hlt hword)
  constructor
  · rw [isNaN, Binary64.magnitude, hbits, Nat.mod_eq_of_lt hlt]
    exact decide_eq_false (Nat.not_lt.2 h)
  · rw [isNegative, hbits]
    exact decide_eq_false (Nat.not_le.2 hlt)

theorem nearest_isNumber (num den : Nat) :
    (nearest false num den).isNaN = false ∧ (nearest false num den).isNegative = false :=
  ofMagnitude_isNumber (Nat.min_le_left _ _)

end Binary64

theorem Decimal.toBinary64_isNumber (d : Decimal) :
    (d.toBinary64 false).isNaN = false ∧ (d.toBinary64 false).isNegative = false := by
  unfold toBinary64
  split
  · exact Binary64.ofMagnitude_isNumber (Nat.zero_le _)
  · split
    · exact Binary64.ofMagnitude_isNumber (Nat.le_refl _)
    · exact Binary64.nearest_isNumber _ _

theorem toLower_of_isDigit {c : Char} (h : c.isDigit = true) : c.toLower = c := by
  simp only [Char.isDigit, Bool.and_eq_true, decide_eq_true_eq] at h
  refine dif_neg fun hupper => ?_
  exact absurd (UInt32.le_trans hupper.1 h.2) (by decide)

section

variable {whole fraction : List Char} (hwhole : IsDigits whole) (hfraction : IsDigits fraction)
include hwhole hfraction

theorem readDecimal?_of_decimal :
    readDecimal? (whole ++ '.' :: fraction) =
      some ⟨natOfDigits (whole ++ fraction), 0 - (fraction.length : Int)⟩ := by
  have hstop : ∀ c ∈ ('.' :: fraction).head?, c.isDigit = false := by
    rintro c ⟨⟩
    rfl
  have htake : ∀ {cs : List Char}, IsDigits cs → cs.takeWhile Char.isDigit = cs :=
    fun hcs => List.takeWhile_eq_self_iff.2 hcs.digits
  have hdrop : ∀ {cs : List Char}, IsDigits cs → cs.dropWhile Char.isDigit = [] :=
    fun hcs => List.dropWhile_eq_nil_iff.2 hcs.digits
  have hempty : ¬ (whole.isEmpty && fraction.isEmpty) = true := by
    rw [Bool.and_eq_true, List.isEmpty_iff]
    exact fun hnil => hwhole.ne_nil hnil.1
  simp only [readDecimal?, takeWhile_append_of_stop hstop, dropWhile_append_of_stop hstop,
    htake hwhole, hdrop hwhole, List.nil_append, htake hfraction, hdrop hfraction, if_neg hempty]
  rfl

/-- Digits with a point are none of the words for infinity and NaN, so they are read as a number,
however many they are. -/
theorem readMagnitude?_of_decimal :
    ∃ d : Decimal, readMagnitude? false (whole ++ '.' :: fraction) = some (d.toBinary64 false) := by
  obtain ⟨c, cs, rfl⟩ := List.exists_cons_of_ne_nil hwhole.ne_nil
  have hc : c.isDigit = true := hwhole.digits c List.mem_cons_self
  have hword : ∀ d ds, d.isAlpha = true →
      String.ofList (((c :: cs) ++ '.' :: fraction).map Char.toLower) ≠
        String.ofList (d :: ds) := by
    intro d ds hd heq
    obtain ⟨hhead, -⟩ := List.cons_eq_cons.1 (String.ofList_injective heq)
    rw [toLower_of_isDigit hc] at hhead
    rw [hhead, Pattern.isDigit_of_isAlpha hd] at hc
    cases hc
  unfold readMagnitude?
  dsimp only
  rw [if_neg, if_neg, readDecimal?_of_decimal hwhole hfraction]
  · exact ⟨_, rfl⟩
  · exact hword 'n' ['a', 'n'] rfl
  · exact not_or.2 ⟨hword 'i' ['n', 'f'] rfl, hword 'i' ['n', 'f', 'i', 'n', 'i', 't', 'y'] rfl⟩

theorem readBinary64?_of_decimal {text : String} (htext : text.toList = whole ++ '.' :: fraction) :
    ∃ x : Binary64, readBinary64? text = some x ∧ x.isNaN = false ∧ x.isNegative = false := by
  obtain ⟨d, hd⟩ := readMagnitude?_of_decimal hwhole hfraction
  refine ⟨d.toBinary64 false, ?_, d.toBinary64_isNumber⟩
  obtain ⟨c, cs, rfl⟩ := List.exists_cons_of_ne_nil hwhole.ne_nil
  have hc : c.isDigit = true := hwhole.digits c List.mem_cons_self
  unfold readBinary64?
  rw [htext, ← hd]
  split
  · next heq =>
    cases heq
    cases hc
  · next heq =>
    cases heq
    cases hc
  · rfl

end

/-! ## Literals of programs -/

section

variable {source file : String} {t : Token}

/-- The integers that a source text can write are read unless they are too large. -/
theorem readInt64?_of_mem_tokenize (ht : t ∈ tokenize source file) (hkind : t.kind = .number) :
    readInt64? t.value =
      if natOfDigits t.value.toList < 2 ^ 63 then some (natOfDigits t.value.toList : Int)
      else none := by
  have hnumeral := isNumeral_of_mem_tokenize ht (by rw [hkind]; rfl)
  rw [hkind] at hnumeral
  cases hnumeral with
  | number hwhole => exact readInt64?_of_isDigits hwhole

/-- The numbers with a fraction that a source text can write are always read. -/
theorem readBinary64?_of_mem_tokenize (ht : t ∈ tokenize source file) (hkind : t.kind = .float) :
    ∃ x : Binary64, readBinary64? t.value = some x ∧ x.isNaN = false ∧ x.isNegative = false := by
  have hnumeral := isNumeral_of_mem_tokenize ht (by rw [hkind]; rfl)
  generalize htext : t.value.toList = text at hnumeral
  rw [hkind] at hnumeral
  cases hnumeral with
  | float hwhole hfraction => exact readBinary64?_of_decimal hwhole hfraction htext

/-- A numeral that stands for no number is an integer beyond 63 bits. -/
theorem Token.IsUnreadable.eq_number (h : t.IsUnreadable) (ht : t ∈ tokenize source file) :
    t.kind = .number ∧ 2 ^ 63 - 1 < natOfDigits t.value.toList := by
  obtain ⟨hkind, hnone⟩ | ⟨hkind, hnone⟩ := h
  · refine ⟨hkind, ?_⟩
    rw [readInt64?_of_mem_tokenize ht hkind] at hnone
    split at hnone
    · cases hnone
    · omega
  · obtain ⟨x, hread, -⟩ := readBinary64?_of_mem_tokenize ht hkind
    cases hnone.symm.trans hread

end

/-- A rejected numeral is a token of the text that cannot be read. -/
theorem exists_unreadable {source file token : String} {d : Diagnostic}
    (h : checkSource source file = .error d) (hfault : d.fault = .invalidNumber token) :
    ∃ t ∈ tokenize source file, t.value = token ∧ d.position = some t.position ∧
      t.IsUnreadable := by
  obtain ⟨t, ht, -, rfl⟩ | ⟨t, ht, rfl⟩ | hconcerns | ⟨fault, hrule, rfl⟩ :=
    checkSource_error_cases h
  · cases hfault
  · cases hfault
  · cases hconcerns with
    | invalidNumber ht hvalue =>
      cases hfault
      exact ⟨_, ht, rfl, rfl, hvalue⟩
    | _ => cases hfault
  · obtain rfl : fault = .invalidNumber token := hfault
    cases hrule

/-- The numbers in a program come from the numerals of its text. -/
theorem literals_of_yields {source file : String} {program : Program}
    (h : program.Yields (tokenize source file)) :
    (∀ i, Terminal.int i ∈ Stmts.yield program.body → 0 ≤ i ∧ i ≤ 2 ^ 63 - 1) ∧
      ∀ x, Terminal.float x ∈ Stmts.yield program.body →
        x.isNaN = false ∧ x.isNegative = false := by
  constructor
  · intro i hi
    obtain ⟨t, ht, hkind, hvalue⟩ := Reads.exists_of_mem h hi
    rw [readInt64?_of_mem_tokenize ht hkind] at hvalue
    split at hvalue
    · cases hvalue
      omega
    · cases hvalue
  · intro x hx
    obtain ⟨t, ht, hkind, hvalue⟩ := Reads.exists_of_mem h hx
    obtain ⟨y, hread, hnumber⟩ := readBinary64?_of_mem_tokenize ht hkind
    cases hvalue.symm.trans hread
    exact hnumber

/-- **Literals**: only an integer beyond 63 bits is rejected as a numeral, and never a number with a
fraction. The leaves of an accepted program are integers of 63 bits and numbers that are not
negative; a leaf is where the yield says so, in an index or a default as well as in a statement. -/
theorem checkSource_numerals (source file : String) :
    match checkSource source file with
    | .error d =>
      (∀ token, d.fault = .invalidNumber token →
        (∃ t ∈ tokenize source file, t.kind = .number ∧ t.value = token ∧
          d.position = some t.position ∧ 2 ^ 63 - 1 < natOfDigits token.toList) ∧
        ∀ t ∈ tokenize source file, t.kind = .float → t.value ≠ token) ∧
      ((∀ t ∈ tokenize source file, t.kind = .number →
          natOfDigits t.value.toList ≤ 2 ^ 63 - 1) →
        ∀ token, d.fault ≠ .invalidNumber token)
    | .ok program =>
      (∀ i, Terminal.int i ∈ Stmts.yield program.body → 0 ≤ i ∧ i ≤ 2 ^ 63 - 1) ∧
      ∀ x, Terminal.float x ∈ Stmts.yield program.body →
        x.isNaN = false ∧ x.isNegative = false := by
  cases hrun : checkSource source file with
  | error d =>
    refine ⟨fun token hfault => ?_, fun hsmall token hfault => ?_⟩
    · obtain ⟨t, ht, rfl, hposition, hunreadable⟩ := exists_unreadable hrun hfault
      obtain ⟨hkind, hlarge⟩ := hunreadable.eq_number ht
      refine ⟨⟨t, ht, hkind, rfl, hposition, hlarge⟩, fun u hu hfloat heq => ?_⟩
      -- A float of the same text would have a point, which the digits of an integer do not.
      have hnumber := isNumeral_of_mem_tokenize ht (by rw [hkind]; rfl)
      have hpoint := (isNumeral_of_mem_tokenize hu (by rw [hfloat]; rfl)).point_mem_iff.2 hfloat
      rw [heq, hnumber.point_mem_iff, hkind] at hpoint
      cases hpoint
    · obtain ⟨t, ht, -, -, hunreadable⟩ := exists_unreadable hrun hfault
      obtain ⟨hkind, hlarge⟩ := hunreadable.eq_number ht
      exact Nat.not_lt.2 (hsmall t ht hkind) hlarge
  | ok program =>
    have hstages := checkSource_stages source file
    rw [hrun] at hstages
    exact literals_of_yields (yields_of_parseProgram hstages.1)

end FrontEnd
