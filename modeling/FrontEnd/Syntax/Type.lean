import FrontEnd.Syntax.Tree

/-!
# Types

`Ty.agrees` is the equality of types by which programs are checked. It looks at structure: the same
array depth, the same primitive name, and for functions agreeing results and the same parameters,
taken as a set of names and types; defaults do not count. The primitive type `ANY` agrees with every
type at every depth, so agreement is not transitive. `Ty.sameBase` compares what stands under the
array levels.

`Ty.text` is the form in which types are shown.
-/

namespace FrontEnd

namespace Ty

/-- The name of the primitive type that agrees with every type. -/
def anyName : String := "ANY"

/-- The wildcard under `depth` array levels. -/
def any (depth : Nat) : Ty := .prim anyName depth

/-- Integers. -/
def int : Ty := .prim "int" 0

/-- Floating-point numbers. -/
def float : Ty := .prim "float" 0

/-- Truth values, the type of conditions. -/
def bool : Ty := .prim "bool" 0

/-- The type of functions without a value to return. -/
def noValue : Ty := .prim "none" 0

/-- The number of array levels. -/
def depth : Ty → Nat
  | prim _ d => d
  | fn _ _ d => d

/-- The same base under another number of array levels. -/
def withDepth : Ty → Nat → Ty
  | prim name _, d => prim name d
  | fn params result _, d => fn params result d

/-- Whether the base is the wildcard. -/
def isAny : Ty → Bool
  | prim name _ => name == anyName
  | fn .. => false

/-- The primitive types whose values operators take. -/
def arithmeticNames : List String := ["int", "float", "bool"]

/-- Whether operators take values of the type. -/
def isArithmetic : Ty → Bool
  | prim name 0 => arithmeticNames.contains name
  | _ => false

/-- The parameters and the result of a function type without array levels. -/
def asFunction? : Ty → Option (List Param × Ty)
  | fn params result 0 => some (params, result)
  | _ => none

@[simp] theorem depth_withDepth (t : Ty) (d : Nat) : (t.withDepth d).depth = d := by
  cases t <;> rfl

@[simp] theorem withDepth_depth (t : Ty) : t.withDepth t.depth = t := by
  cases t <;> rfl

@[simp] theorem isAny_withDepth (t : Ty) (d : Nat) : (t.withDepth d).isAny = t.isAny := by
  cases t <;> rfl

end Ty

/-- The first parameter of a name. -/
def findParam? (params : List Param) (name : String) : Option Param :=
  params.find? (·.name == name)

/-! ## Agreement -/

mutual

/-- Whether two types count as equal. -/
def Ty.agrees : Ty → Ty → Bool
  | .prim a d, u =>
    a == Ty.anyName || u.isAny ||
      match u with
      | .prim b e => d == e && a == b
      | .fn .. => false
  | .fn ps r d, u =>
    u.isAny ||
      match u with
      | .prim .. => false
      | .fn qs s e =>
        d == e && r.agrees s && Params.within ps qs &&
          qs.all fun q => Params.hasAgreeing ps q.name q.type

/-- Whether every parameter on the left agrees with one on the right. Which of the two is asked does
not matter, by `Params.agree_iff_candidates`. -/
def Params.within : List Param → List Param → Bool
  | [], _ => true
  | ⟨name, type, _⟩ :: ps, qs =>
    (qs.any fun q => name == q.name && type.agrees q.type) && Params.within ps qs

/-- Whether a parameter of the list has the name and agrees with the type. -/
def Params.hasAgreeing : List Param → String → Ty → Bool
  | [], _, _ => false
  | ⟨name, type, _⟩ :: ps, m, u => (name == m && type.agrees u) || Params.hasAgreeing ps m u

end

namespace Param

/-- Whether two parameters have the same name and agreeing types. -/
def agrees (p q : Param) : Bool := p.name == q.name && p.type.agrees q.type

end Param

namespace Params

/-- Whether two parameter lists agree as sets. -/
def agree (ps qs : List Param) : Bool :=
  within ps qs && qs.all fun q => hasAgreeing ps q.name q.type

theorem within_iff {ps qs : List Param} : within ps qs ↔ ∀ p ∈ ps, ∃ q ∈ qs, p.agrees q := by
  induction ps with
  | nil => simp [within]
  | cons p ps ih =>
    obtain ⟨name, type, _⟩ := p
    simp [within, ih, Param.agrees]

theorem hasAgreeing_iff {ps : List Param} {name : String} {type : Ty} :
    hasAgreeing ps name type ↔ ∃ p ∈ ps, p.name = name ∧ p.type.agrees type := by
  induction ps with
  | nil => simp [hasAgreeing]
  | cons p ps ih =>
    obtain ⟨name, type, _⟩ := p
    simp [hasAgreeing, ih]

/-- Lists agree if each parameter of either has one in the other that it agrees with. -/
theorem agree_iff {ps qs : List Param} :
    agree ps qs ↔ (∀ p ∈ ps, ∃ q ∈ qs, p.agrees q) ∧ ∀ q ∈ qs, ∃ p ∈ ps, p.agrees q := by
  simp [agree, within_iff, hasAgreeing_iff, Param.agrees]

end Params

namespace Ty

/-- Whether two types agree when their array levels are left aside; here the wildcard agrees with
primitive types only. -/
def sameBase : Ty → Ty → Bool
  | prim a _, prim b _ => a == anyName || b == anyName || a == b
  | fn ps r _, fn qs s _ => r.agrees s && Params.agree ps qs
  | _, _ => false

/-- Types agree if one has the wildcard for its base or else depth and base are the same. -/
theorem agrees_eq (t u : Ty) :
    t.agrees u = (t.isAny || u.isAny || (t.depth == u.depth && t.sameBase u)) := by
  cases t <;> cases u <;> simp [agrees, isAny, depth, sameBase, Params.agree, Bool.and_assoc]
  rename_i a d b e
  cases a == anyName <;> cases b == anyName <;> simp

/-- Without the wildcard for a base, types agree if depth and base are the same. -/
theorem agrees_iff_of_isAny {t u : Ty} (ht : t.isAny = false) (hu : u.isAny = false) :
    t.agrees u = true ↔ t.depth = u.depth ∧ t.sameBase u = true := by
  rw [agrees_eq, ht, hu, Bool.false_or, Bool.false_or, Bool.and_eq_true, beq_iff_eq]

@[simp] theorem sameBase_withDepth (t u : Ty) (d e : Nat) :
    (t.withDepth d).sameBase (u.withDepth e) = t.sameBase u := by
  cases t <;> cases u <;> rfl

end Ty

/-! ## Text -/

/-- A text under brackets, one pair for each array level. -/
def bracketed (depth : Nat) (text : String) : String :=
  String.ofList (List.replicate depth '[') ++ text ++ String.ofList (List.replicate depth ']')

mutual

/-- The form in which a type is shown. -/
def Ty.text : Ty → String
  | .prim name d => bracketed d name
  | .fn params result d => bracketed d ("(" ++ Params.text params ++ "): " ++ result.text)

/-- The form in which parameters are shown: names and types, without defaults. -/
def Params.text : List Param → String
  | [] => ""
  | [⟨name, type, _⟩] => name ++ ": " ++ type.text
  | ⟨name, type, _⟩ :: p :: ps => name ++ ": " ++ type.text ++ ", " ++ Params.text (p :: ps)

end

end FrontEnd
