import FrontEnd.Proofs.Parsing.Exactness
import FrontEnd.Proofs.Stages.Diagnostics
import FrontEnd.Proofs.TypeText.Injective

/-!
# Types that are held against each other

Some faults show two types and say that the one is not the other. What they show is text, and the
text of a type leaves its defaults out; but defaults are never the reason of such a fault. So the
two texts are never the same.

- `Ty.isLettered_of_standsIn`: the names in a type that a program writes are words.
- `checkSource_contrast`: the types in a fault of a text have words for names and do not agree.
- `contrasts_differ`: so they are shown differently.
-/

namespace FrontEnd

/-! ## The types of a program -/

/-- Whether what names something in a row is a word. -/
def NamesWords (row : List Terminal) : Prop :=
  ∀ kind text, Terminal.word kind text ∈ row → kind.isNaming = true → isWord text = true

theorem namesWords_yield {source file : String} {program : Program}
    (h : parseProgram (tokenize source file) file = .ok program) :
    NamesWords (Stmts.yield program.body) := by
  intro kind text hmem hkind
  have hyields : Reads (Stmts.yield program.body) (tokenize source file) :=
    yields_of_parseProgram h
  obtain ⟨t, ht, rfl, rfl⟩ := hyields.exists_of_mem hmem
  exact (isWord_of_mem_tokenize ht hkind).1

/-- Where names are words, the names in a type that is written are. -/
theorem Ty.isLettered_of_standsIn {row : List Terminal} (hrow : NamesWords row) (t : Ty)
    (h : StandsIn t.yield row) : t.isLettered = true := by
  have hprimitive : ∀ name, Terminal.word .primitive name ∈ row → isWord name = true :=
    fun name hname => hrow .primitive name hname rfl
  have hparameter : ∀ name, Terminal.word .identifier name ∈ row → isWord name = true :=
    fun name hname => hrow .identifier name hname rfl
  exact t.namesAll_of_standsIn hprimitive hparameter h

theorem Ty.isLettered_inherited : Ty.Inherited (·.isLettered = true) where
  builtIns := by decide
  emptyArray := rfl
  withDepth {t} _ ht := by
    cases t with
    | prim name d => exact ht
    | fn params result d => exact ht
  parts h := by
    obtain ⟨hparams, hresult⟩ := isLettered_fn.1 h
    exact ⟨fun p hp => (hparams p hp).2, hresult⟩

/-! ## The types in a fault -/

/-- Only faults of types hold types against each other. -/
theorem Fault.kind_of_contrast {fault : Fault} {texts : String × String}
    (h : fault.contrast? = some texts) : fault.kind = .typing := by
  cases fault <;> first | rfl | cases h

theorem kind_of_parseProgram {source file : String} {d : Diagnostic}
    (h : parseProgram (tokenize source file) file = .error d) :
    d.fault.kind = .lexical ∨ d.fault.kind = .grammatical := by
  unfold parseProgram at h
  split at h
  · cases h
    exact .inl rfl
  · exact .inr (parseAll_grounded h).1

/-- The types that a fault of a text holds against each other do not agree, and all names in them
are words. -/
theorem checkSource_contrast {source file : String} {d : Diagnostic}
    (h : checkSource source file = .error d) {one other : String}
    (hcontrast : d.fault.contrast? = some (one, other)) :
    ∃ t u : Ty, t.isLettered = true ∧ u.isLettered = true ∧ t.agrees u = false ∧
      one = t.text ∧ other = u.text := by
  rw [checkSource_eq] at h
  cases hparse : parseProgram (tokenize source file) file with
  | error d' =>
    rw [hparse] at h
    cases h
    -- Only the rules for types report two of them, and the earlier stages have other faults.
    have htyping := Fault.kind_of_contrast hcontrast
    rcases kind_of_parseProgram hparse with hkind | hkind
    · cases htyping.symm.trans hkind
    · cases htyping.symm.trans hkind
  | ok program =>
    rw [hparse] at h
    dsimp only at h
    split at h
    · next fault hcheck =>
      cases h
      -- The names of all types that the rules come to stand among the tokens.
      have hwritten := Ty.isLettered_of_standsIn (namesWords_yield hparse)
      have hfounded := program.check_founded Ty.isLettered_inherited hwritten fault hcheck
      exact hfounded.contrast one other hcontrast
    · cases h

/-- **Contrasts**: where a text is rejected for a value or an argument of a wrong type, the type due
and the type received are shown differently, and so are the types of two array entries. -/
theorem contrasts_differ {source file : String} {d : Diagnostic}
    (h : checkSource source file = .error d) :
    (∀ expected received, d.fault = .typeMismatch expected received → expected ≠ received) ∧
    (∀ argument expected received, d.fault = .argumentMismatch argument expected received →
      expected ≠ received) ∧
    ∀ first other, d.fault = .mixedEntries first other → first ≠ other := by
  have hdiffer : ∀ one other, d.fault.contrast? = some (one, other) → one ≠ other := by
    intro one other hcontrast
    obtain ⟨t, u, ht, hu, htu, rfl, rfl⟩ := checkSource_contrast h hcontrast
    exact Ty.text_ne_of_agrees ht hu htu
  refine ⟨?_, ?_, ?_⟩
  · intro expected received hfault
    exact hdiffer _ _ (congrArg Fault.contrast? hfault)
  · intro argument expected received hfault
    exact hdiffer _ _ (congrArg Fault.contrast? hfault)
  · intro first other hfault
    exact hdiffer _ _ (congrArg Fault.contrast? hfault)

/-- A text that gives a function of numbers to a variable for functions of arrays. -/
def unfitFunctionText : String :=
  "fun twice(x: int <- 1): int <- begin return x * 2; end let g : (x: [int]): int <- twice;"

/-- Only the depth of the parameter tells the two types apart, since the default is not shown. -/
theorem unfitFunction_contrast :
    checkSource unfitFunctionText defaultFile =
      .error (.semantic (.typeMismatch "(x: [int]): int" "(x: int): int")) ∧
    "(x: [int]): int" ≠ "(x: int): int" := by
  have hrefused : (checkSource unfitFunctionText defaultFile).map (fun _ => ()) =
      .error (.semantic (.typeMismatch "(x: [int]): int" "(x: int): int")) := by
    decide +kernel
  cases hsource : checkSource unfitFunctionText defaultFile with
  | ok program =>
    rw [hsource] at hrefused
    cases hrefused
  | error d =>
    rw [hsource] at hrefused
    cases hrefused
    exact ⟨rfl, (contrasts_differ hsource).1 _ _ rfl⟩

end FrontEnd
