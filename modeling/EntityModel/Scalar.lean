import EntityModel.Text.Case

/-!
# Scalar kinds

What a field that is not typed by a schema can hold.

Results:
* `ofLabel?_label`: every kind is read back from its label.
-/
namespace EntityModel

/-- The kind of a scalar field. -/
inductive ScalarKind where
  | boolean
  | buffer
  | date
  | decimal
  | id
  | mixed
  | number
  | string
deriving DecidableEq, Repr

namespace ScalarKind

/-- All kinds, in order of their labels. -/
def all : List ScalarKind := [boolean, buffer, date, decimal, id, mixed, number, string]

/-- The word for a kind. -/
def label : ScalarKind → String
  | boolean => "Boolean"
  | buffer => "Buffer"
  | date => "Date"
  | decimal => "Decimal"
  | id => "Id"
  | mixed => "Mixed"
  | number => "Number"
  | string => "String"

/-- The kind with exactly this label. -/
def ofLabel? (label : String) : Option ScalarKind := all.find? (·.label == label)

/-- The kind with this label, whatever its case. -/
def ofText? (text : String) : Option ScalarKind :=
  all.find? fun kind => Text.lower kind.label == Text.lower text

/-- Values of the kind have no stable shape. -/
def isOpaque (kind : ScalarKind) : Bool := kind == mixed

/-- Values of the kind can identify a document. -/
def supportsId (kind : ScalarKind) : Bool := kind == id || kind == number || kind == string

theorem ofLabel?_label (kind : ScalarKind) : ofLabel? kind.label = some kind := by
  cases kind <;> decide

end ScalarKind

end EntityModel
