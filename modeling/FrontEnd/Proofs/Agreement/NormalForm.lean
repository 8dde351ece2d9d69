import FrontEnd.Proofs.Agreement.Equivalence
import Mathlib.Logic.Equiv.Finset
import Mathlib.Logic.Relation

/-!
# Types in normal form

Two scans compare the parameters of function types, one for each direction, and each comparison of
parameter types in them starts two more. What they find out is whether two sets are equal: those of
the names of the parameters with their types, taken as such sets themselves.

- `NormalForm`: a primitive type, or a function type whose parameters are a finite set.
- `Ty.normalForm`: the normal form of a type, without defaults, order and repetitions.
- `Ty.agrees_iff_normalForm`: concrete types agree if and only if their normal forms are the same.
- `Ty.Edited`: one change to a type, at any depth, that its normal form does not show.
- `agreement_normal_forms`: no sequence of such changes is noticed by agreement, even in front of
  wildcards, where normal forms do not decide it.
-/

namespace FrontEnd

/-! ## Normal forms -/

instance charEncodable : Encodable Char := .ofLeftInverse Char.toNat Char.ofNat Char.ofNat_toNat

instance stringEncodable : Encodable String := .ofLeftInverse String.toList String.ofList
  fun _ => String.ofList_toList

/-- A type in normal form. The parts of a function type are finite sets of normal forms, which no
inductive type can have for its own elements; so a normal form is a number for its parts. -/
structure NormalForm where
  number : Nat
deriving DecidableEq

namespace NormalForm

instance : Encodable NormalForm := .ofLeftInverse number mk fun _ => rfl

/-- Name and depth of a primitive type, or parameters, result and depth of a function type. -/
abbrev Parts : Type := (String × Nat) ⊕ (Finset (String × NormalForm) × NormalForm × Nat)

/-- The normal form with these parts. -/
def ofParts (parts : Parts) : NormalForm := ⟨Encodable.encode parts⟩

/-- A primitive type under `depth` array levels. -/
def prim (name : String) (depth : Nat) : NormalForm := ofParts (.inl (name, depth))

/-- A function type, its parameters a set of names and types, under `depth` array levels. -/
def fn (params : Finset (String × NormalForm)) (result : NormalForm) (depth : Nat) : NormalForm :=
  ofParts (.inr (params, result, depth))

/-- Normal forms are the same exactly if their parts are. -/
theorem ofParts_inj {p q : Parts} : ofParts p = ofParts q ↔ p = q := by
  rw [ofParts, ofParts, mk.injEq, Encodable.encode_inj]

variable {a b : String} {d e : Nat} {ps qs : Finset (String × NormalForm)} {r s : NormalForm}

/-- Normal forms of primitive types tell the name and the levels. -/
theorem prim_inj : prim a d = prim b e ↔ a = b ∧ d = e := by
  rw [prim, prim, ofParts_inj, Sum.inl.injEq, Prod.mk.injEq]

/-- Normal forms of function types tell the set of parameters, the result and the levels. -/
theorem fn_inj : fn ps r d = fn qs s e ↔ ps = qs ∧ r = s ∧ d = e := by
  rw [fn, fn, ofParts_inj, Sum.inr.injEq, Prod.mk.injEq, Prod.mk.injEq]

/-- No primitive type has the normal form of a function type. -/
theorem prim_ne_fn : prim a d ≠ fn qs s e := by
  rw [prim, fn, Ne, ofParts_inj]
  exact Sum.inl_ne_inr

end NormalForm

mutual

/-- The normal form of a type. -/
def Ty.normalForm : Ty → NormalForm
  | .prim name depth => .prim name depth
  | .fn params result depth => .fn (Params.normalForms params) result.normalForm depth

/-- The names of parameters with the normal forms of their types. -/
def Params.normalForms : List Param → Finset (String × NormalForm)
  | [] => ∅
  | ⟨name, type, _⟩ :: params => insert (name, type.normalForm) (Params.normalForms params)

end

/-- The normal forms of parameters are those of their types, each under its name. -/
theorem Params.mem_normalForms {params : List Param} {name : String} {form : NormalForm} :
    (name, form) ∈ Params.normalForms params ↔
      ∃ p ∈ params, p.name = name ∧ p.type.normalForm = form := by
  induction params with
  | nil => simp [normalForms]
  | cons p params ih =>
    obtain ⟨name', type, default?⟩ := p
    rw [normalForms, Finset.mem_insert, ih, Prod.mk.injEq, List.exists_mem_cons_iff]
    exact or_congr_left ⟨fun h => ⟨h.1.symm, h.2.symm⟩, fun h => ⟨h.1.symm, h.2.symm⟩⟩

/-- Parameters make the same set if each has one of its name and normal form in the other list. -/
theorem Params.normalForms_eq_iff {ps qs : List Param} :
    Params.normalForms ps = Params.normalForms qs ↔
      Covers (fun p q => p.name = q.name ∧ p.type.normalForm = q.type.normalForm) ps qs := by
  constructor
  · intro h
    refine ⟨fun p hp => ?_, fun q hq => ?_⟩
    · have hmem : (p.name, p.type.normalForm) ∈ Params.normalForms ps :=
        mem_normalForms.2 ⟨p, hp, rfl, rfl⟩
      rw [h] at hmem
      obtain ⟨q, hq, hname, hform⟩ := mem_normalForms.1 hmem
      exact ⟨q, hq, hname.symm, hform.symm⟩
    · have hmem : (q.name, q.type.normalForm) ∈ Params.normalForms qs :=
        mem_normalForms.2 ⟨q, hq, rfl, rfl⟩
      rw [← h] at hmem
      exact mem_normalForms.1 hmem
  · intro h
    ext ⟨name, form⟩
    rw [mem_normalForms, mem_normalForms]
    constructor
    · rintro ⟨p, hp, rfl, rfl⟩
      obtain ⟨q, hq, hname, hform⟩ := h.1 p hp
      exact ⟨q, hq, hname.symm, hform.symm⟩
    · rintro ⟨q, hq, rfl, rfl⟩
      exact h.2 q hq

namespace Ty

/-- Primitive types have one normal form exactly if they are the same type. -/
theorem normalForm_prim_prim (a b : String) (d e : Nat) :
    (prim a d).normalForm = (prim b e).normalForm ↔ d = e ∧ a = b := by
  rw [normalForm, normalForm, NormalForm.prim_inj, and_comm]

theorem normalForm_prim_fn (a : String) (d : Nat) (qs : List Param) (s : Ty) (e : Nat) :
    (prim a d).normalForm ≠ (fn qs s e).normalForm := by
  rw [normalForm, normalForm]
  exact NormalForm.prim_ne_fn

/-- Function types have one normal form exactly if their parts have. -/
theorem normalForm_fn_fn (ps qs : List Param) (r s : Ty) (d e : Nat) :
    (fn ps r d).normalForm = (fn qs s e).normalForm ↔
      (d = e ∧ r.normalForm = s.normalForm) ∧ Params.normalForms ps = Params.normalForms qs := by
  rw [normalForm, normalForm, NormalForm.fn_inj]
  constructor
  · rintro ⟨hparams, hresult, hdepth⟩
    exact ⟨⟨hdepth, hresult⟩, hparams⟩
  · rintro ⟨⟨hdepth, hresult⟩, hparams⟩
    exact ⟨hparams, hresult, hdepth⟩

/-- Concrete types agree if and only if they have the same normal form. -/
theorem agrees_iff_normalForm {t u : Ty} (ht : t.isConcrete = true) (hu : u.isConcrete = true) :
    t.agrees u = true ↔ t.normalForm = u.normalForm := by
  induction t using Ty.induction generalizing u with
  | prim a d =>
    have ha : (a == anyName) = false := isAny_of_isConcrete ht
    cases u with
    | prim b e =>
      have hb : (b == anyName) = false := isAny_of_isConcrete hu
      rw [agrees_prim_prim, ha, hb, Bool.false_or, Bool.false_or, Bool.and_eq_true, beq_iff_eq,
        beq_iff_eq, normalForm_prim_prim]
    | fn qs s e =>
      rw [agrees_prim_fn, ha]
      exact ⟨nofun, fun h => absurd h (normalForm_prim_fn a d qs s e)⟩
  | fn ps r d hparams hresult =>
    obtain ⟨hps, hr⟩ := isConcrete_fn.1 ht
    cases u with
    | prim b e =>
      have hb : (b == anyName) = false := isAny_of_isConcrete hu
      rw [agrees_fn_prim, hb]
      exact ⟨nofun, fun h => absurd h.symm (normalForm_prim_fn b e ps r d)⟩
    | fn qs s e =>
      obtain ⟨hqs, hs⟩ := isConcrete_fn.1 hu
      have hparam : ∀ p ∈ ps, ∀ q ∈ qs, p.agrees q = true ↔
          p.name = q.name ∧ p.type.normalForm = q.type.normalForm := by
        intro p hp q hq
        rw [Param.agrees_iff, hparams p hp (hps p hp) (hqs q hq)]
      -- Both sides are about the same pairs of parameters, so the scans compare sets.
      have hagree : Params.agree ps qs = true ↔
          Params.normalForms ps = Params.normalForms qs := by
        rw [Params.agree_iff_covers, Params.normalForms_eq_iff]
        constructor
        · exact fun h => h.imp fun p hp q hq => (hparam p hp q hq).1
        · exact fun h => h.imp fun p hp q hq => (hparam p hp q hq).2
      rw [agrees_fn_fn, Bool.and_eq_true, Bool.and_eq_true, beq_iff_eq, hresult hr hs, hagree,
        normalForm_fn_fn]

end Ty

/-! ## Edits -/

mutual

/-- One change to a type at any depth: a list of parameters is permuted, a parameter is repeated, or
its default is added, replaced or removed. -/
inductive Ty.Edited : Ty → Ty → Prop
  | params {ps qs : List Param} {result : Ty} {depth : Nat} (h : Params.Edited ps qs) :
      Ty.Edited (.fn ps result depth) (.fn qs result depth)
  | result {params : List Param} {r s : Ty} {depth : Nat} (h : Ty.Edited r s) :
      Ty.Edited (.fn params r depth) (.fn params s depth)

/-- Lists of parameters that differ in order, in a repetition, or in the default or the type of one
parameter. -/
inductive Params.Edited : List Param → List Param → Prop
  | permuted {ps qs : List Param} (h : ps.Perm qs) : Params.Edited ps qs
  | repeated {p : Param} {ps qs : List Param} (h : p ∈ ps ++ qs) :
      Params.Edited (ps ++ qs) (ps ++ p :: qs)
  | default {name : String} {type : Ty} {d e : Option Expr} {ps qs : List Param} :
      Params.Edited (ps ++ ⟨name, type, d⟩ :: qs) (ps ++ ⟨name, type, e⟩ :: qs)
  | type {name : String} {t u : Ty} {default? : Option Expr} {ps qs : List Param}
      (h : Ty.Edited t u) :
      Params.Edited (ps ++ ⟨name, t, default?⟩ :: qs) (ps ++ ⟨name, u, default?⟩ :: qs)

end

/-- Parameters of one name whose types agree with the same types. -/
def Param.Interchangeable (p q : Param) : Prop :=
  p.name = q.name ∧ ∀ t : Ty, p.type.agrees t = q.type.agrees t

/-- A parameter can stand for itself. -/
theorem Param.Interchangeable.refl (p : Param) : p.Interchangeable p :=
  ⟨rfl, fun _ => rfl⟩

/-- One element may be replaced by one that it is related to. -/
theorem Covers.replace {α : Type} {R : α → α → Prop} (h : ∀ x, R x x) {x y : α} (hxy : R x y)
    (xs ys : List α) : Covers R (xs ++ x :: ys) (xs ++ y :: ys) := by
  have hsame : ∀ zs : List α, List.Forall₂ R zs zs := fun zs => List.forall₂_same.2 fun z _ => h z
  exact .of_forall₂ (List.rel_append (hsame xs) (.cons hxy (hsame ys)))

/-- Lists of interchangeable parameters agree with the same lists. -/
theorem Params.agree_of_interchangeable {ps qs : List Param}
    (h : Covers Param.Interchangeable ps qs) (os : List Param) :
    Params.agree ps os = Params.agree qs os := by
  rw [Bool.eq_iff_iff, Params.agree_iff_covers, Params.agree_iff_covers]
  refine h.congr (Covers.refl (fun _ => rfl) os) ?_
  rintro p q o _ ⟨hname, htype⟩ rfl
  rw [Param.agrees, Param.agrees, hname, htype]

mutual

/-- An edit changes no agreement, whatever the other type. -/
theorem Ty.Edited.agrees_eq : ∀ {t t' : Ty}, t.Edited t' → ∀ u : Ty, t.agrees u = t'.agrees u
  | _, _, .params h, u => by
    cases u with
    | prim name depth => rw [Ty.agrees_fn_prim, Ty.agrees_fn_prim]
    | fn params result depth =>
      rw [Ty.agrees_fn_fn, Ty.agrees_fn_fn, Params.agree_of_interchangeable h.covers]
  | _, _, .result h, u => by
    cases u with
    | prim name depth => rw [Ty.agrees_fn_prim, Ty.agrees_fn_prim]
    | fn params result depth => rw [Ty.agrees_fn_fn, Ty.agrees_fn_fn, h.agrees_eq result]

/-- An edit of a list leaves each parameter of either side with one to stand for it. -/
theorem Params.Edited.covers : ∀ {ps qs : List Param}, Params.Edited ps qs →
    Covers Param.Interchangeable ps qs
  | _, _, .permuted h => (Covers.refl .refl _).perm h
  | _, _, .repeated h => by
    refine ⟨fun q hq => ⟨q, ?_, .refl q⟩, fun q hq => ⟨q, ?_, .refl q⟩⟩
    · exact List.mem_append.2 ((List.mem_append.1 hq).imp_right (List.mem_cons_of_mem _))
    · obtain hq | hq := List.mem_append.1 hq
      · exact List.mem_append_left _ hq
      · obtain rfl | hq := List.mem_cons.1 hq
        · exact h
        · exact List.mem_append_right _ hq
  | _, _, .default => .replace .refl ⟨rfl, fun _ => rfl⟩ _ _
  | _, _, .type h => .replace .refl ⟨rfl, h.agrees_eq⟩ _ _

end

/-- No sequence of edits changes an agreement, in either direction. -/
theorem Ty.agrees_of_edits {t t' : Ty} (h : Relation.EqvGen Ty.Edited t t') (u : Ty) :
    t.agrees u = t'.agrees u := by
  induction h with
  | rel t t' h => exact h.agrees_eq u
  | refl t => rfl
  | symm t t' _ ih => exact ih.symm
  | trans t t' t'' _ _ ih ih' => exact ih.trans ih'

/-- **Normal forms**: concrete types agree if and only if their normal forms are the same. These
show name and depth of a primitive type, and depth, result and the set of parameters of a function
type. Whether or not wildcards occur in two types, edits to them make no difference to agreement:
neither the order of parameters, nor repetitions, nor defaults. -/
theorem agreement_normal_forms :
    (∀ t u : Ty, t.isConcrete = true → u.isConcrete = true →
      (t.agrees u = true ↔ t.normalForm = u.normalForm)) ∧
    (∀ a b d e, (Ty.prim a d).normalForm = (Ty.prim b e).normalForm ↔ d = e ∧ a = b) ∧
    (∀ a d qs s e, (Ty.prim a d).normalForm ≠ (Ty.fn qs s e).normalForm) ∧
    (∀ ps qs r s d e, (Ty.fn ps r d).normalForm = (Ty.fn qs s e).normalForm ↔
      (d = e ∧ r.normalForm = s.normalForm) ∧ Params.normalForms ps = Params.normalForms qs) ∧
    (∀ params name form, (name, form) ∈ Params.normalForms params ↔
      ∃ p ∈ params, p.name = name ∧ p.type.normalForm = form) ∧
    ∀ t t' u u' : Ty, Relation.EqvGen Ty.Edited t t' → Relation.EqvGen Ty.Edited u u' →
      t.agrees u = t'.agrees u' := by
  refine ⟨fun t u ht hu => Ty.agrees_iff_normalForm ht hu, Ty.normalForm_prim_prim,
    Ty.normalForm_prim_fn, Ty.normalForm_fn_fn, fun _ _ _ => Params.mem_normalForms, ?_⟩
  intro t t' u u' ht hu
  calc t.agrees u
    _ = t'.agrees u := Ty.agrees_of_edits ht u
    _ = u.agrees t' := Ty.agrees_comm t' u
    _ = u'.agrees t' := Ty.agrees_of_edits hu t'
    _ = t'.agrees u' := Ty.agrees_comm u' t'

/-- Edits to the parameters of a parameter are edits to the type. -/
theorem takesFunction_edited {ps qs : List Param} (h : Params.Edited ps qs) :
    Relation.EqvGen Ty.Edited (takesFunction ps) (takesFunction qs) := by
  have hparams : Params.Edited ([] ++ ⟨"f", .fn ps .bool 0, none⟩ :: [])
      ([] ++ ⟨"f", .fn qs .bool 0, none⟩ :: []) := .type (.params h)
  exact .rel _ _ (.params hparams)

/-- With one order and a repetition the normal form is the same, and in front of wildcards, at which
it does not help, three edits in a row are not noticed either. -/
theorem takesFunction_normal :
    (takesFunction [⟨"x", .int, none⟩, ⟨"y", .float, none⟩]).normalForm =
      (takesFunction [⟨"y", .float, none⟩, ⟨"x", .int, none⟩, ⟨"y", .float, none⟩]).normalForm ∧
    (takesFunction [⟨"x", .any 0, none⟩, ⟨"y", .float, some (Factor.int 1).toExpr⟩]).agrees
        (takesFunction [⟨"x", .int, none⟩, ⟨"y", .any 2, none⟩]) =
      (takesFunction [⟨"y", .float, none⟩, ⟨"x", .any 0, none⟩, ⟨"y", .float, none⟩]).agrees
        (takesFunction [⟨"y", .any 2, none⟩, ⟨"x", .int, none⟩]) := by
  obtain ⟨hforms, -, -, -, -, hedits⟩ := agreement_normal_forms
  constructor
  · exact (hforms _ _ (by decide) (by decide)).1 (by decide)
  · have hdefault : Params.Edited
        ([⟨"x", .any 0, none⟩] ++ ⟨"y", .float, some (Factor.int 1).toExpr⟩ :: [])
        ([⟨"x", .any 0, none⟩] ++ ⟨"y", .float, none⟩ :: []) := .default
    have hrepeated : Params.Edited ([] ++ [⟨"x", .any 0, none⟩, ⟨"y", .float, none⟩])
        ([] ++ ⟨"y", .float, none⟩ :: [⟨"x", .any 0, none⟩, ⟨"y", .float, none⟩]) :=
      .repeated (List.mem_of_getElem? (i := 1) rfl)
    have hpermuted : Params.Edited [⟨"x", .int, none⟩, ⟨"y", .any 2, none⟩]
        [⟨"y", .any 2, none⟩, ⟨"x", .int, none⟩] := .permuted (.swap ..)
    exact hedits _ _ _ _
      (.trans _ _ _ (takesFunction_edited hdefault) (takesFunction_edited hrepeated))
      (takesFunction_edited hpermuted)

end FrontEnd
