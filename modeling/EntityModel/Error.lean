import EntityModel.Catalog
import EntityModel.Config
import EntityModel.FindQuery.Reader
import EntityModel.GenerationError
import EntityModel.Store

/-!
# Errors and their classes

Every way to fail, with the class under which it is reported.
-/
namespace EntityModel

/-- The class of an error. -/
inductive ErrorClass where
  | conflict
  | internal
  | invariantViolation
  | notFound
  | unsupported
  | validation
deriving DecidableEq, Repr

/-- The word for a class. -/
def ErrorClass.label : ErrorClass → String
  | conflict => "conflict"
  | internal => "internal"
  | invariantViolation => "invariant_violation"
  | notFound => "not_found"
  | unsupported => "unsupported"
  | validation => "validation"

/-- The class of a refused definition. -/
def DefinitionError.errorClass : DefinitionError → ErrorClass
  | .duplicateField _ _ => .conflict
  | .noOwner _ => .invariantViolation
  | .invalid _ _ => .validation

/-- The class of a catalog's refusal. -/
def CatalogError.errorClass : CatalogError → ErrorClass
  | .unknownSchema _ => .notFound
  | .invalid _ => .validation

/-- The class of a failed generation. -/
def GenerationError.errorClass : GenerationError → ErrorClass
  | .emptyType _ => .validation
  | .missingId _ _ => .validation
  | .unsupportedType _ _ => .unsupported
  | .definition cause => cause.errorClass

/-- The class of a failed operation. -/
def ResolveError.errorClass : ResolveError → ErrorClass
  | .invalidArgument _ _ => .validation
  | .missingArgument _ _ => .validation
  | .notFound _ _ => .notFound
  | .store _ => .internal
  | .unknownOperation _ => .notFound

/-- Every way to fail. -/
inductive Error where
  | definition (cause : DefinitionError)
  | catalog (cause : CatalogError)
  | config (cause : ConfigError)
  | generation (cause : GenerationError)
  | query (cause : FindQuery.Error)
  | resolve (cause : ResolveError)

namespace Error

/-- The class of an error. -/
def errorClass : Error → ErrorClass
  | definition cause => cause.errorClass
  | catalog cause => cause.errorClass
  | config _ => .validation
  | generation cause => cause.errorClass
  | query _ => .validation
  | resolve cause => cause.errorClass

/-- The error in words. -/
def message : Error → String
  | definition cause => cause.message
  | catalog cause => cause.message
  | config cause => cause.message
  | generation cause => cause.message
  | query cause => cause.message
  | resolve cause => cause.message

/-- The report of an error: its class and its message. -/
def classified (error : Error) : String := error.errorClass.label ++ ": " ++ error.message

end Error

end EntityModel
