import EntityModel.GenerationError
import EntityModel.Schema.TypeName

/-!
# GraphQL types

A type is a name under list and non-null wrapping. Each scalar kind but one has a GraphQL type, a
reference is read as its target and sent as an id, and an embedded field is read and sent as its
shape.

Results:
* `required_isClosed`: a required type is marked as one.
* `typeRef_base`: the name under the wrapping of a field's type.
-/
namespace EntityModel

/-- A GraphQL type. -/
inductive TypeRef where
  | named (name : String)
  | list (item : TypeRef)
  | nonNull (of : TypeRef)
deriving DecidableEq, Repr

namespace TypeRef

/-- The spelling of a type. -/
def text : TypeRef → String
  | named name => name
  | list item => "[" ++ item.text ++ "]"
  | nonNull of => of.text ++ "!"

/-- The name under all wrapping. -/
def base : TypeRef → String
  | named name => name
  | list item => item.base
  | nonNull of => of.base

/-- The spelling ends with the mark of a required type; a name may end with it by itself. -/
def isClosed : TypeRef → Bool
  | named name => name.toList.getLast? == some '!'
  | list _ => false
  | nonNull _ => true

/-- The type with the mark of a required one, which it never gets twice. -/
def required (type : TypeRef) : TypeRef := if type.isClosed then type else nonNull type

theorem required_isClosed (type : TypeRef) : type.required.isClosed = true := by
  unfold required
  split
  · assumption
  · rfl

theorem base_required (type : TypeRef) : type.required.base = type.base := by
  unfold required
  split <;> rfl

end TypeRef

/-- The GraphQL type of a scalar kind, if it has one. -/
def ScalarKind.typeRef? : ScalarKind → Option TypeRef
  | .boolean => some (.named "Boolean")
  | .buffer => some (.nonNull (.list (.named "Int")))
  | .date => some (.named "String")
  | .decimal => some (.named "Float")
  | .id => some (.named "ID")
  | .mixed => none
  | .number => some (.named "Int")
  | .string => some (.named "String")

namespace Field

/-- The type of one value of the field. -/
def itemType (field : Field) (side : Side) : Except GenerationError TypeRef :=
  match field.type with
  | .scalar kind =>
    match kind.typeRef? with
    | some type => .ok type
    | none => .error (.unsupportedType field.name kind)
  | .reference target =>
    match side with
    | .output => .ok (.named target.name)
    | .input => .ok (.named "ID")
  | .embedded _ =>
    match field.embeddedName side with
    | .ok name => .ok (.named name)
    | .error cause => .error (.definition cause)

/-- A value must be there: clients read every id, but need not send one, since the server gives
them out. -/
def isRequired (field : Field) : Side → Bool
  | .output => field.flags.required || field.flags.id
  | .input => field.flags.required && !field.flags.id

/-- The type of the field on one side. -/
def typeRef (field : Field) (side : Side) : Except GenerationError TypeRef :=
  (field.itemType side).map fun item =>
    let type := if field.flags.array then .nonNull (.list item) else item
    if field.isRequired side then type.required else type

theorem typeRef_base {field : Field} {side : Side} {type : TypeRef}
    (h : field.typeRef side = .ok type) :
    ∃ item, field.itemType side = .ok item ∧ type.base = item.base := by
  unfold typeRef at h
  cases hi : field.itemType side with
  | error e => simp [hi, Except.map] at h
  | ok item =>
    refine ⟨item, rfl, ?_⟩
    simp only [hi, Except.map, Except.ok.injEq] at h
    subst h
    split <;> split <;> simp [TypeRef.base, TypeRef.base_required]

end Field

end EntityModel
