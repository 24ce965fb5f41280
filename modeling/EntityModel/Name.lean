import EntityModel.Name.Pascal

/-!
# Names

What a field and a schema may be called. An identifier is a GraphQL name outside the
introspection namespace; a field name is an identifier of at most 64 bytes; a schema name is
ASCII, of at most 64 bytes, in Pascal case and not reserved. The first rule broken is the fault
reported.

Results:
* `fieldNameFault_eq_none`: a field name is sound exactly when it is a sound identifier of at
  most 64 bytes.
-/
namespace EntityModel.Name

/-- The most bytes that a field or schema name may have. -/
def maxLength : Nat := 64

/-- Names that every document declares or that GraphQL itself uses. -/
def reserved : List String :=
  ["Boolean", "Float", "ID", "Int", "Mutation", "Mutations", "Queries", "Query", "QueryModifier",
    "String", "Subscription"]

/-- What is wrong with a name. -/
inductive Fault where
  | identEmpty
  | identMalformed (ident : String)
  | identIntrospection (ident : String)
  | fieldTooLong (name : String)
  | schemaEmpty
  | schemaTooLong (name : String)
  | schemaNotAscii (name : String)
  | schemaNotPascal (name : String)
  | schemaReserved (name : String)
deriving DecidableEq, Repr

/-- The fault in words. -/
def Fault.message : Fault → String
  | .identEmpty => "ident is empty"
  | .identMalformed ident => s!"ident '{ident}' is not a valid GraphQL name"
  | .identIntrospection ident => s!"ident '{ident}' uses the reserved '__' prefix"
  | .fieldTooLong name => s!"field name '{name}' exceeds max length 64"
  | .schemaEmpty => "schema name is empty"
  | .schemaTooLong name => s!"schema name '{name}' exceeds max length 64"
  | .schemaNotAscii name => s!"schema name '{name}' must be ASCII"
  | .schemaNotPascal name => s!"schema name '{name}' must be PascalCase"
  | .schemaReserved name => s!"the word '{name}' is reserved"

/-- The character may start an identifier. -/
def startsIdent (c : Char) : Bool := c == '_' || c.isAlpha

/-- The character may stand in an identifier. -/
def continuesIdent (c : Char) : Bool := c == '_' || c.isAlphanum

/-- The fault of an identifier. -/
def identFault? (ident : String) : Option Fault :=
  match ident.toList with
  | [] => some .identEmpty
  | first :: rest =>
    if !(startsIdent first && rest.all continuesIdent) then some (.identMalformed ident)
    else if first == '_' && rest.head? == some '_' then some (.identIntrospection ident)
    else none

/-- The fault of a field name. -/
def fieldNameFault? (name : String) : Option Fault :=
  match identFault? name with
  | some fault => some fault
  | none => if maxLength < name.utf8ByteSize then some (.fieldTooLong name) else none

/-- The fault of a schema name. -/
def schemaNameFault? (name : String) : Option Fault :=
  if name = "" then some .schemaEmpty
  else if maxLength < name.utf8ByteSize then some (.schemaTooLong name)
  else if name.toList.any (128 ≤ ·.toNat) then some (.schemaNotAscii name)
  else if pascal name ≠ name then some (.schemaNotPascal name)
  else if name ∈ reserved then some (.schemaReserved name)
  else none

theorem fieldNameFault_eq_none (name : String) :
    fieldNameFault? name = none ↔ identFault? name = none ∧ name.utf8ByteSize ≤ maxLength := by
  unfold fieldNameFault?
  cases identFault? name <;> simp

end EntityModel.Name
