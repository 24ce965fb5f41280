import EntityModel.IssueTree

/-!
# Why a definition is refused

The causes that stop a schema or a field from being composed, and their wording.
-/
namespace EntityModel

/-- Why a schema or field definition is refused. -/
inductive DefinitionError where
  | duplicateField (schema field : String)
  | noOwner (field : String)
  | invalid (schema : String) (issues : IssueTree)

/-- The cause in words. -/
def DefinitionError.message : DefinitionError → String
  | .duplicateField schema field => s!"duplicate field '{field}' on schema '{schema}'"
  | .noOwner field => s!"field '{field}' references a schema but has no owning schema"
  | .invalid schema issues => s!"schema '{schema}' failed validation: {issues.text}"

end EntityModel
