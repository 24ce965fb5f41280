import EntityModel.Schema
import EntityModel.Json

/-!
# Schemas as JSON

The JSON form of a schema and of its fields. Targets stand by name only, and absent texts and
empty lists of names are left out.
-/
namespace EntityModel

/-- The form of a field type: one member that names the kind of type. -/
def FieldType.toJson : FieldType → Json
  | .scalar kind => .object [("Scalar", .str kind.label)]
  | .reference target => .object [("Reference", .str target.name)]
  | .embedded target => .object [("Embedded", .str target.name)]

/-- The form of a field. -/
def Field.toJson (field : Field) : Json :=
  .object ([("name", .str field.name), ("ty", field.type.toJson),
    ("required", .bool field.flags.required), ("unique", .bool field.flags.unique),
    ("array", .bool field.flags.array), ("audit", .bool field.flags.audit),
    ("internal", .bool field.flags.internal), ("id", .bool field.flags.id),
    ("must_be_encrypted", .bool field.flags.encrypted)]
    ++ Json.optional "description" field.description ++ Json.optional "owner" field.owner)

/-- The form of a schema. -/
def Schema.toJson (schema : Schema) : Json :=
  .object ([("name", .str schema.name), ("plural_name", .str schema.pluralName)]
    ++ Json.optional "description" schema.description
    ++ [("is_entity", .bool schema.isEntity),
      ("fields", .object (schema.fields.map fun field => (field.name, field.toJson)))]
    ++ Json.nonEmpty "internal_fields" schema.internalFields
    ++ Json.nonEmpty "audit_fields" schema.auditFields)

end EntityModel
