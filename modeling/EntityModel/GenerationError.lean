import EntityModel.Scalar
import EntityModel.Schema.Error

/-!
# Why GraphQL text cannot be generated

The causes that stop a document or a request from being written, and their wording.
-/
namespace EntityModel

/-- Why GraphQL text cannot be generated. -/
inductive GenerationError where
  | emptyType (name : String)
  | missingId (schema field : String)
  | unsupportedType (field : String) (kind : ScalarKind)
  | definition (cause : DefinitionError)

/-- The cause in words. -/
def GenerationError.message : GenerationError → String
  | .emptyType name => s!"'{name}' would have no fields"
  | .missingId schema field => s!"schema '{schema}' has no value for id field '{field}'"
  | .unsupportedType field kind =>
    s!"field '{field}' has type {kind.label}, which has no GraphQL mapping"
  | .definition cause => cause.message

end EntityModel
