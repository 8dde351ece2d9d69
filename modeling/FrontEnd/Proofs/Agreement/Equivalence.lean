import FrontEnd.Proofs.Parameters.Reordering

/-!
# How far agreement is an equality

Agreement of types is reflexive and symmetric. The wildcard agrees with types that do not agree with
each other, so it is not transitive, and a chain of agreements breaks where it leads through a
wildcard. It breaks nowhere else: two types that agree can stand for each other, in front of any
third type, if no wildcard occurs in *them*.

- `Ty.induction`: what holds of a function type if it holds of its parameter types and its result.
- `Ty.isConcrete`: no wildcard occurs in a type, at any depth.
- `Ty.agrees_refl`, `Ty.agrees_comm`, `Ty.agrees_congr_right`: the three laws.
- `Params.agree_iff_candidates`: the scan of parameters asks each pair one way round or the other.
- `agreement_equivalence`: so agreement is an equivalence among the concrete types.
-/

namespace FrontEnd

/-! ## Induction over types -/

mutual

/-- Induction over a type, through the types of its parameters and its result. Defaults have no part
in it. -/
@[elab_as_elim]
theorem Ty.induction {motive : Ty → Prop} (prim : ∀ name depth, motive (.prim name depth))
    (fn : ∀ params result depth, (∀ p ∈ params, motive p.type) → motive result →
      motive (.fn params result depth)) : ∀ t : Ty, motive t
  | .prim name depth => prim name depth
  | .fn params result depth =>
    fn params result depth (Params.induction prim fn params) (Ty.induction prim fn result)

theorem Params.induction {motive : Ty → Prop} (prim : ∀ name depth, motive (.prim name depth))
    (fn : ∀ params result depth, (∀ p ∈ params, motive p.type) → motive result →
      motive (.fn params result depth)) : ∀ params : List Param, ∀ p ∈ params, motive p.type
  | [] => List.forall_mem_nil _
  | ⟨_, type, _⟩ :: params =>
    List.forall_mem_cons.2 ⟨Ty.induction prim fn type, Params.induction prim fn params⟩

end

/-! ## Types without wildcards -/

mutual

/-- Whether no wildcard occurs in a type, nor in the types of parameters or results inside it. -/
def Ty.isConcrete : Ty → Bool
  | .prim name _ => name != Ty.anyName
  | .fn params result _ => Params.areConcrete params && result.isConcrete

/-- Whether no wildcard occurs in the types of parameters. -/
def Params.areConcrete : List Param → Bool
  | [] => true
  | ⟨_, type, _⟩ :: params => type.isConcrete && Params.areConcrete params

end

theorem Params.areConcrete_iff {params : List Param} :
    Params.areConcrete params = true ↔ ∀ p ∈ params, p.type.isConcrete = true := by
  induction params with
  | nil => exact ⟨fun _ => List.forall_mem_nil _, fun _ => rfl⟩
  | cons p params ih =>
    obtain ⟨name, type, default?⟩ := p
    rw [areConcrete, Bool.and_eq_true, ih, List.forall_mem_cons]

namespace Ty

/-- A function type is concrete if its parts are. -/
theorem isConcrete_fn {params : List Param} {result : Ty} {depth : Nat} :
    (fn params result depth).isConcrete = true ↔
      (∀ p ∈ params, p.type.isConcrete = true) ∧ result.isConcrete = true := by
  rw [isConcrete, Bool.and_eq_true, Params.areConcrete_iff]

/-- A concrete type is not the wildcard itself. -/
theorem isAny_of_isConcrete {t : Ty} (h : t.isConcrete = true) : t.isAny = false := by
  cases t with
  | prim name depth =>
    rw [isConcrete] at h
    exact Bool.eq_false_iff.2 (bne_iff_ne.1 h ∘ eq_of_beq)
  | fn params result depth => rfl

/-! ## Agreement by the forms of both types -/

/-- Primitive types agree if they are the same, or if one is the wildcard. -/
theorem agrees_prim_prim (a b : String) (d e : Nat) :
    (prim a d).agrees (prim b e) = (a == anyName || b == anyName || (d == e && a == b)) := by
  rw [agrees, isAny, Bool.or_assoc]

/-- A primitive type agrees with a function type only if it is the wildcard. -/
theorem agrees_prim_fn (a : String) (d : Nat) (qs : List Param) (s : Ty) (e : Nat) :
    (prim a d).agrees (fn qs s e) = (a == anyName) := by
  rw [agrees, isAny, Bool.or_false, Bool.or_false]

theorem agrees_fn_prim (ps : List Param) (r : Ty) (d : Nat) (b : String) (e : Nat) :
    (fn ps r d).agrees (prim b e) = (b == anyName) := by
  rw [agrees, isAny, Bool.or_false]

/-- Function types agree if their levels are the same and their parts agree. -/
theorem agrees_fn_fn (ps qs : List Param) (r s : Ty) (d e : Nat) :
    (fn ps r d).agrees (fn qs s e) = (d == e && r.agrees s && Params.agree ps qs) := by
  rw [agrees, isAny, Bool.false_or, Params.agree, Bool.and_assoc, Bool.and_assoc]

end Ty

/-! ## Covering lists -/

namespace Covers

variable {α β γ : Type} {R : α → β → Prop} {xs : List α} {ys : List β} {zs : List γ}

/-- A list covers itself. -/
theorem refl {R : α → α → Prop} (h : ∀ x, R x x) (xs : List α) : Covers R xs xs :=
  ⟨fun x hx => ⟨x, hx, h x⟩, fun x hx => ⟨x, hx, h x⟩⟩

theorem map_iff {α' β' : Type} {R : α' → β' → Prop} {f : α → α'} {g : β → β'} :
    Covers R (xs.map f) (ys.map g) ↔ Covers (fun x y => R (f x) (g y)) xs ys := by
  simp [Covers]

/-- Covering under a relation is covering under a weaker one. -/
theorem imp {S : α → β → Prop} (h : Covers R xs ys)
    (hRS : ∀ x ∈ xs, ∀ y ∈ ys, R x y → S x y) : Covers S xs ys := by
  refine ⟨fun x hx => ?_, fun y hy => ?_⟩
  · obtain ⟨y, hy, hxy⟩ := h.1 x hx
    exact ⟨y, hy, hRS x hx y hy hxy⟩
  · obtain ⟨x, hx, hxy⟩ := h.2 y hy
    exact ⟨x, hx, hRS x hx y hy hxy⟩

/-- Covering has no direction, if the relation is turned round. -/
theorem comm : Covers R xs ys ↔ Covers (fun y x => R x y) ys xs :=
  And.comm

/-- Covering carries on over a third list. -/
theorem trans {S : β → γ → Prop} {T : α → γ → Prop} (hxy : Covers R xs ys) (hyz : Covers S ys zs)
    (hT : ∀ x ∈ xs, ∀ y ∈ ys, ∀ z ∈ zs, R x y → S y z → T x z) : Covers T xs zs := by
  refine ⟨fun x hx => ?_, fun z hz => ?_⟩
  · obtain ⟨y, hy, hR⟩ := hxy.1 x hx
    obtain ⟨z, hz, hS⟩ := hyz.1 y hy
    exact ⟨z, hz, hT x hx y hy z hz hR hS⟩
  · obtain ⟨y, hy, hS⟩ := hyz.2 z hz
    obtain ⟨x, hx, hR⟩ := hxy.2 y hy
    exact ⟨x, hx, hT x hx y hy z hz hR hS⟩

end Covers

/-- Lists of parameters agree if each parameter of either agrees with one of the other. -/
theorem Params.agree_iff_covers {ps qs : List Param} :
    Params.agree ps qs = true ↔ Covers (fun p q => p.agrees q = true) ps qs :=
  Params.agree_iff

/-- Parameters agree if their names are the same and their types agree. -/
theorem Param.agrees_iff {p q : Param} :
    p.agrees q = true ↔ p.name = q.name ∧ p.type.agrees q.type = true := by
  rw [agrees, Bool.and_eq_true, beq_iff_eq]

namespace Ty

/-! ## Reflexivity and symmetry -/

/-- Every type agrees with itself. -/
theorem agrees_refl (t : Ty) : t.agrees t = true := by
  induction t using Ty.induction with
  | prim name depth => simp [agrees_prim_prim]
  | fn params result depth hparams hresult =>
    have hself : ∀ p ∈ params, p.agrees p = true :=
      fun p hp => Param.agrees_iff.2 ⟨rfl, hparams p hp⟩
    have hagree : Params.agree params params = true :=
      Params.agree_iff.2 ⟨fun p hp => ⟨p, hp, hself p hp⟩, fun p hp => ⟨p, hp, hself p hp⟩⟩
    simp [agrees_fn_fn, hresult, hagree]

/-- Agreement is the same from both sides. -/
theorem agrees_comm (t u : Ty) : t.agrees u = u.agrees t := by
  induction t using Ty.induction generalizing u with
  | prim a d =>
    cases u with
    | prim b e =>
      rw [agrees_prim_prim, agrees_prim_prim, Bool.or_comm (a == anyName),
        BEq.comm (a := a) (b := b), BEq.comm (a := d)]
    | fn qs s e => rw [agrees_prim_fn, agrees_fn_prim]
  | fn ps r d hparams hresult =>
    cases u with
    | prim b e => rw [agrees_prim_fn, agrees_fn_prim]
    | fn qs s e =>
      have hparam : ∀ p ∈ ps, ∀ q, p.agrees q = q.agrees p := by
        intro p hp q
        rw [Param.agrees, Param.agrees, hparams p hp q.type, BEq.comm]
      -- The two scans change places, and each comparison in them is turned round.
      have hagree : Params.agree ps qs = Params.agree qs ps := by
        rw [Bool.eq_iff_iff, Params.agree_iff_covers, Params.agree_iff_covers, Covers.comm]
        constructor
        · exact fun h => h.imp fun q _ p hp hpq => hparam p hp q ▸ hpq
        · exact fun h => h.imp fun q _ p hp hqp => (hparam p hp q).trans hqp
      rw [agrees_fn_fn, agrees_fn_fn, hresult s, hagree, BEq.comm (a := d)]

end Ty

/-! ## The scans of two lists -/

theorem Param.agrees_comm (p q : Param) : p.agrees q = q.agrees p := by
  rw [agrees, agrees, Ty.agrees_comm, BEq.comm (a := p.name)]

/-- Both scans of two lists can be put as the same question: of each parameter of one list, whether
a candidate of the other agrees with it. Agreement is symmetric, so it does not matter on which side
the candidate stands, as it does on the left here and on the right in `Params.within`. -/
theorem Params.agree_iff_candidates {ps qs : List Param} :
    Params.agree ps qs = true ↔
      (∀ param ∈ ps, ∃ candidate ∈ qs, candidate.agrees param = true) ∧
        ∀ param ∈ qs, ∃ candidate ∈ ps, candidate.agrees param = true := by
  rw [Params.agree_iff]
  refine and_congr_left' (forall₂_congr fun param _ => exists_congr fun candidate => ?_)
  rw [Param.agrees_comm]

/-! ## Interchange -/

namespace Ty

/-- Concrete types that agree are the same primitive type, or function types whose parts agree. -/
theorem agrees_concrete {t u : Ty} (ht : t.isConcrete = true) (hu : u.isConcrete = true)
    (h : t.agrees u = true) :
    (∃ name depth, t = prim name depth ∧ u = prim name depth) ∨
      ∃ ps r qs s depth, t = fn ps r depth ∧ u = fn qs s depth ∧ r.agrees s = true ∧
        Params.agree ps qs = true := by
  have htany := isAny_of_isConcrete ht
  have huany := isAny_of_isConcrete hu
  rcases t with ⟨a, d⟩ | ⟨ps, r, d⟩ <;> rcases u with ⟨b, e⟩ | ⟨qs, s, e⟩
  · left
    rw [isAny] at htany huany
    rw [agrees_prim_prim, htany, huany, Bool.false_or, Bool.false_or, Bool.and_eq_true,
      beq_iff_eq, beq_iff_eq] at h
    obtain ⟨rfl, rfl⟩ := h
    exact ⟨a, d, rfl, rfl⟩
  · rw [agrees_prim_fn] at h
    cases htany.symm.trans h
  · rw [agrees_fn_prim] at h
    cases huany.symm.trans h
  · right
    rw [agrees_fn_fn, Bool.and_eq_true, Bool.and_eq_true, beq_iff_eq] at h
    obtain ⟨⟨rfl, hresult⟩, hparams⟩ := h
    exact ⟨ps, r, qs, s, d, rfl, rfl, hresult, hparams⟩

/-- What agrees with a concrete type agrees with every concrete type that the first agrees with.
Wildcards may occur in the type in front. -/
theorem agrees_trans {t u v : Ty} (hu : u.isConcrete = true) (hv : v.isConcrete = true)
    (htu : t.agrees u = true) (huv : u.agrees v = true) : t.agrees v = true := by
  induction t using Ty.induction generalizing u v with
  | prim a d =>
    rcases agrees_concrete hu hv huv with
      ⟨name, depth, rfl, rfl⟩ | ⟨ps, r, qs, s, depth, rfl, rfl, -⟩
    · exact htu
    · rw [agrees_prim_fn] at htu ⊢
      exact htu
  | fn ps r d hparams hresult =>
    rcases agrees_concrete hu hv huv with
      ⟨name, depth, rfl, rfl⟩ | ⟨qs, s, qs', s', depth, rfl, rfl, hresults, hagree⟩
    · exact htu
    · obtain ⟨hqs, hs⟩ := isConcrete_fn.1 hu
      obtain ⟨hqs', hs'⟩ := isConcrete_fn.1 hv
      rw [agrees_fn_fn, Bool.and_eq_true, Bool.and_eq_true] at htu ⊢
      obtain ⟨⟨hdepth, hresult'⟩, hparams'⟩ := htu
      refine ⟨⟨hdepth, hresult hs hs' hresult' hresults⟩, ?_⟩
      rw [Params.agree_iff_covers] at hparams' hagree ⊢
      refine hparams'.trans hagree fun p hp q hq q' hq' hpq hqq' => ?_
      rw [Param.agrees_iff] at hpq hqq' ⊢
      have htype := hparams p hp (hqs q hq) (hqs' q' hq') hpq.2 hqq'.2
      exact ⟨hpq.1.trans hqq'.1, htype⟩

/-- Concrete types that agree cannot be told apart by a third type. -/
theorem agrees_congr_right {u v : Ty} (hu : u.isConcrete = true) (hv : v.isConcrete = true)
    (huv : u.agrees v = true) (t : Ty) : t.agrees u = t.agrees v := by
  have hvu : v.agrees u = true := (agrees_comm v u).trans huv
  rw [Bool.eq_iff_iff]
  exact ⟨fun htu => agrees_trans hu hv htu huv, fun htv => agrees_trans hv hu htv hvu⟩

end Ty

/-- **Agreement**: it is reflexive and symmetric but, for the wildcard, not transitive. Concrete
types that agree agree with the same types, whether or not wildcards occur in these, and so
agreement is an equivalence among the concrete types. -/
theorem agreement_equivalence :
    (∀ t : Ty, t.agrees t = true) ∧
    (∀ t u : Ty, t.agrees u = u.agrees t) ∧
    (¬ ∀ t u v : Ty, t.agrees u = true → u.agrees v = true → t.agrees v = true) ∧
    (∀ u v : Ty, u.isConcrete = true → v.isConcrete = true → u.agrees v = true →
      ∀ t : Ty, t.agrees u = t.agrees v) ∧
    Equivalence fun t u : {t : Ty // t.isConcrete = true} => t.1.agrees u.1 = true := by
  refine ⟨Ty.agrees_refl, Ty.agrees_comm, fun htrans => ?_,
    fun u v hu hv huv t => Ty.agrees_congr_right hu hv huv t, ⟨?_, ?_, ?_⟩⟩
  · -- Everything agrees with the wildcard, and it with everything.
    cases htrans .int (.any 0) .float rfl rfl
  · exact fun t => Ty.agrees_refl t.1
  · intro t u h
    rw [Ty.agrees_comm]
    exact h
  · intro t u v htu huv
    exact Ty.agrees_trans u.2 v.2 htu huv

/-- The type of functions that take a function, whose own parameters have the given order. -/
def takesFunction (inner : List Param) : Ty :=
  .fn [⟨"f", .fn inner .bool 0, none⟩] .int 1

/-- Under a parameter and an array level, a list of parameters and the same list in another order,
with one of them repeated, cannot be told apart. -/
theorem takesFunction_agrees :
    takesFunction [⟨"x", .int, none⟩, ⟨"y", .prim "float" 2, none⟩] ≠
      takesFunction [⟨"y", .prim "float" 2, none⟩, ⟨"x", .int, none⟩,
        ⟨"y", .prim "float" 2, none⟩] ∧
    ∀ t : Ty, t.agrees (takesFunction [⟨"x", .int, none⟩, ⟨"y", .prim "float" 2, none⟩]) =
      t.agrees (takesFunction [⟨"y", .prim "float" 2, none⟩, ⟨"x", .int, none⟩,
        ⟨"y", .prim "float" 2, none⟩]) := by
  constructor
  · simp [takesFunction]
  · exact agreement_equivalence.2.2.2.1 _ _ (by decide) (by decide) (by decide)

end FrontEnd
