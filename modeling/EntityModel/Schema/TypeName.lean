import EntityModel.Schema
import EntityModel.Schema.Error

/-!
# Type names of fields

The capitalised name of a field names the shape that an embedded field holds, with the schema
that the field belongs to in front. A shape has two sides: what clients read and what they send.

Results:
* `typeName_isOk`: a field has a type name unless it is embedded and belongs to no schema.
* `embeddedName_output`: on the output side the name stands alone.
-/
namespace EntityModel

/-- The side of the interface that a type belongs to. -/
inductive Side where
  | output
  | input
deriving DecidableEq, Repr

/-- What the side appends to the name of a type. -/
def Side.ending : Side → String
  | output => ""
  | input => "Input"

namespace Field

/-- The capitalised name of a field; an embedded field has the name of its schema in front. -/
def typeName (field : Field) : Except DefinitionError String :=
  if field.isEmbedded then
    match field.owner with
    | some owner => .ok (owner ++ Text.capitalize field.name)
    | none => .error (.noOwner field.name)
  else .ok (Text.capitalize field.name)

/-- The name of the shape on one side. -/
def embeddedName (field : Field) (side : Side) : Except DefinitionError String :=
  field.typeName.map (· ++ side.ending)

/-- The field is shown on this side: internal fields nowhere, audit fields only on the output. -/
def isShown (field : Field) (side : Side) : Bool :=
  !field.flags.internal && (side == .output || !field.flags.audit)

theorem typeName_isOk (field : Field) :
    (∃ name, field.typeName = .ok name) ↔ (field.isEmbedded = true → field.owner ≠ none) := by
  unfold typeName
  split
  · cases field.owner <;> simp_all
  · simp_all

theorem embeddedName_output (field : Field) : field.embeddedName .output = field.typeName := by
  unfold embeddedName
  cases field.typeName <;> simp [Except.map, Side.ending]

end Field

end EntityModel
