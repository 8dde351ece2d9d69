import FrontEnd.Fault.Basic
import FrontEnd.Syntax.Type

/-!
# The rules of typing

What has to hold among types that are already known: where a value is due, along a chain of
operators, in a comparison, among the entries of an array, under indices, and at a call. A rule
answers the resulting type, or the fault by which it fails; which declarations are in scope does not
concern it.
-/

namespace FrontEnd

namespace Typing

/-- A value has to have the type due. -/
def demand (expected received : Ty) : Except Fault Unit :=
  if received.agrees expected then .ok () else .error (.typeMismatch expected.text received.text)

/-- An operand and the rest of its chain have to agree, and the operand has to be arithmetic. -/
def joinable (head tail : Ty) : Except Fault Unit :=
  if head.agrees tail then
    if head.isArithmetic then .ok () else .error (.notArithmetic head.text)
  else .error (.typeMismatch head.text tail.text)

/-- Whether a comparison asks for an order, and not only for equality. -/
def isOrdering (relop : String) : Bool := relop.toList.any fun c => c == '<' || c == '>'

/-- Two operands of a comparison have to agree, and arrays have no order. -/
def comparable (left : Ty) (relop : String) (right : Ty) : Except Fault Unit :=
  if left.agrees right then
    if isOrdering relop && left.depth != 0 then .error (.notComparable relop left.text) else .ok ()
  else .error (.typeMismatch left.text right.text)

/-- Some types and one more, unless one of them agrees with it. -/
def addDistinct (seen : List Ty) (type : Ty) : List Ty :=
  if seen.any (·.agrees type) then seen else seen ++ [type]

/-- The type of an array from the types of its entries, which are gathered up to agreement. If
several remain, the first two are at fault; without entries it is an array of the wildcard. -/
def array (types : List Ty) : Except Fault Ty :=
  match types.foldl addDistinct [] with
  | [] => .ok (.any 1)
  | [type] => .ok (type.withDepth (type.depth + 1))
  | first :: other :: _ => .error (.mixedEntries first.text other.text)

/-- The type of a variable under some indices; each takes one array level off. -/
def indexed (name : String) (declared : Ty) (indices : Nat) : Except Fault Ty :=
  if indices ≤ declared.depth then .ok (declared.withDepth (declared.depth - indices))
  else .error (.tooManyIndices name declared.depth indices)

/-- The parameters and the result of the function that a call names. Every argument has to name a
parameter, and every parameter without a default has to be named by an argument. -/
def signature (callee : String) (declared : Ty) (args : List Arg) :
    Except Fault (List Param × Ty) :=
  match declared.asFunction? with
  | none => .error (.notCallable callee declared.text)
  | some (params, result) =>
    match args.find? fun arg => (findParam? params arg.name).isNone with
    | some arg => .error (.unexpectedArgument callee arg.name)
    | none =>
      match params.find? fun p => p.default?.isNone && !args.any (·.name == p.name) with
      | some param => .error (.missingArgument callee param.name)
      | none => .ok (params, result)

/-- An argument has to have the type of the parameter it names. -/
def argument (params : List Param) (name : String) (received : Ty) : Except Fault Unit :=
  match findParam? params name with
  | none => .ok ()
  | some param =>
    if received.agrees param.type then .ok ()
    else .error (.argumentMismatch name param.type.text received.text)

/-- A parameter of a closure has to have a name that none before it has. -/
def newParam (seen : List String) (name : String) : Except Fault Unit :=
  if seen.contains name then .error (.duplicateParameter name) else .ok ()

/-! ## Arrays by their first entry -/

theorem prefix_addDistinct (seen : List Ty) (type : Ty) : seen <+: addDistinct seen type := by
  unfold addDistinct
  split
  · exact List.prefix_rfl
  · exact List.prefix_append seen [type]

theorem prefix_foldl_addDistinct (types seen : List Ty) :
    seen <+: types.foldl addDistinct seen := by
  induction types generalizing seen with
  | nil => exact List.prefix_rfl
  | cons type types ih => exact (prefix_addDistinct seen type).trans (ih _)

theorem addDistinct_singleton (first type : Ty) :
    addDistinct [first] type = if first.agrees type then [first] else [first, type] := by
  rw [addDistinct, List.any_cons, List.any_nil, Bool.or_false]
  rfl

/-- Although every entry is compared with all that have been gathered, the first one decides: as
long as the others agree with it nothing else is gathered, and one that does not is at fault. -/
theorem array_cons (first : Ty) (rest : List Ty) :
    array (first :: rest) =
      match rest.find? (!first.agrees ·) with
      | some other => .error (.mixedEntries first.text other.text)
      | none => .ok (first.withDepth (first.depth + 1)) := by
  unfold array
  show (match rest.foldl addDistinct [first] with | [] => _ | [type] => _ | _ :: _ :: _ => _) = _
  induction rest with
  | nil => rfl
  | cons type rest ih =>
    rw [List.foldl_cons, addDistinct_singleton, List.find?_cons]
    cases first.agrees type with
    | true => exact ih
    | false =>
      -- What has been gathered stays in front, whatever else follows.
      obtain ⟨more, hmore⟩ := prefix_foldl_addDistinct rest [first, type]
      rw [if_neg Bool.false_ne_true, ← hmore]
      rfl

end Typing

end FrontEnd
