import EntityModel.Catalog.Claim

/-!
# Names across schemas

Schema names differ even when case is ignored, and no type name is claimed twice.

Results:
* `registrations_map`: registration keeps the schemas and their order.
-/
namespace EntityModel

/-- The name by which a schema is looked up: case does not count. -/
def lookupKey (name : String) : String := Text.lower name

/-- A schema with the latest one before it that has its name up to case. -/
structure Registration where
  schema : Schema
  namesake : Option Schema

/-- Registers schemas after the `earlier` ones, of which the latest comes first. -/
def registrationsAfter (earlier : List Schema) : List Schema → List Registration
  | [] => []
  | schema :: rest =>
    let key := lookupKey schema.name
    ⟨schema, earlier.find? fun other => lookupKey other.name == key⟩
      :: registrationsAfter (schema :: earlier) rest

/-- Every schema with its namesake, in order. -/
def registrations (schemas : List Schema) : List Registration := registrationsAfter [] schemas

/-- The message about a schema that has a namesake. -/
def Registration.messages (registration : Registration) : List String :=
  match registration.namesake with
  | some other =>
    [s!"duplicate schema name '{registration.schema.name}' (already registered as '{other.name}')"]
  | none => []

/-- The claim of a schema on its own name; one with a namesake makes none. -/
def Registration.claims (registration : Registration) : List Claim :=
  match registration.namesake with
  | some _ => []
  | none => [⟨registration.schema.name, .schema registration.schema.name⟩]

/-- All claims: the schemas' own names first, then what each entity adds. -/
def claimsOf (schemas : List Schema) : List Claim :=
  (registrations schemas).flatMap Registration.claims
  ++ (schemas.filter (·.isEntity)).flatMap Schema.entityClaims

/-- The message about two claims on one name. -/
def conflictMessage (conflict : Claim × Claim) : String :=
  let (first, second) := conflict
  s!"type name '{second.typeName}' is claimed by both "
    ++ s!"{first.claimant.label} and {second.claimant.label}"

/-- Every message about names. -/
def namingMessages (schemas : List Schema) : List String :=
  (registrations schemas).flatMap Registration.messages
  ++ (conflicts (claimsOf schemas)).map conflictMessage

theorem registrations_map (schemas : List Schema) :
    (registrations schemas).map (·.schema) = schemas := by
  suffices h : ∀ earlier, (registrationsAfter earlier schemas).map (·.schema) = schemas from h []
  induction schemas with
  | nil => intro _; rfl
  | cons schema rest ih => intro earlier; simp [registrationsAfter, ih]

end EntityModel
