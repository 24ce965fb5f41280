import EntityModel.Name
import EntityModel.Schema
import EntityModel.Schema.Error

/-!
# The check of one schema

The names of the schema and of its fields, and the flags that cannot stand together. Messages
about the schema's name stand at the root, those about a field under its name, naming before
flags.

Results:
* `flagIssues_plain`: a field without flags has no issue with them.
-/
namespace EntityModel

/-- Files every message under one key. -/
def IssueTree.addAllFor (tree : IssueTree) (key : String) (messages : List String) : IssueTree :=
  messages.foldl (fun tree message => tree.addFor key message) tree

/-- What speaks against the type of an identifier. -/
def FieldType.idIssues : FieldType → List String
  | .scalar kind => if kind.supportsId then [] else [s!"id field cannot be of kind {kind.label}"]
  | _ => ["id field must be scalar"]

/-- The flags of a field that cannot stand together, or not with its type. -/
def Field.flagIssues (field : Field) : List String :=
  (if field.flags.internal && field.flags.audit then ["field cannot be both internal and audit"]
    else [])
  ++ (if field.flags.id then
      field.type.idIssues ++ (if field.flags.array then ["id field cannot be an array"] else [])
    else [])
  ++ (if field.flags.unique then
      (if field.isEmbedded then ["embedded field cannot be unique"] else [])
      ++ (if field.type.scalar?.any ScalarKind.isOpaque then ["opaque field cannot be unique"] else [])
    else [])

/-- The fault of a field's name, as messages. -/
def Field.nameIssues (field : Field) : List String :=
  ((Name.fieldNameFault? field.name).map Name.Fault.message).toList

/-- The fault of a schema's name, as messages. -/
def Schema.nameIssues (schema : Schema) : List String :=
  ((Name.schemaNameFault? schema.name).map Name.Fault.message).toList

/-- Every issue of a schema by itself. -/
def Schema.issues (schema : Schema) : IssueTree :=
  let named := schema.fields.foldl (fun tree field => tree.addAllFor field.name field.nameIssues)
    ⟨schema.nameIssues, []⟩
  schema.fields.foldl (fun tree field => tree.addAllFor field.name field.flagIssues) named

theorem Field.flagIssues_plain (name : String) (type : FieldType) :
    (Field.ofType name type).flagIssues = [] := rfl

end EntityModel
