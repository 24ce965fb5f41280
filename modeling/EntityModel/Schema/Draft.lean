import EntityModel.Schema.Check

/-!
# Drafts

A schema in the making. Fields come from lists and from finished schemas; each belongs to the
draft from then on, whatever it belonged to before, and no name comes twice. Freezing checks the
draft and hands out the schema.

Results:
* `addField_eq_error`: a field is refused exactly when its name is taken.
-/
namespace EntityModel

/-- A schema in the making. -/
structure Draft where
  name : String
  isEntity : Bool
  pluralName : Option String := none
  description : Option String := none
  fields : Keyed Field := []

namespace Draft

/-- The draft of an entity. -/
def entity (name : String) : Draft := { name, isEntity := true }

/-- The draft of an embedded shape. -/
def embedded (name : String) : Draft := { name, isEntity := false }

/-- Gives the draft a plural name. -/
def withPlural (draft : Draft) (pluralName : String) : Draft :=
  { draft with pluralName := some pluralName }

/-- Gives the draft a description. -/
def withDescription (draft : Draft) (description : String) : Draft :=
  { draft with description := some description }

/-- Adds a field, which belongs to the draft from then on. -/
def addField (draft : Draft) (field : Field) : Except DefinitionError Draft :=
  if Keyed.has field.name draft.fields then .error (.duplicateField draft.name field.name)
  else
    let owned := { field with owner := some draft.name }
    .ok { draft with fields := Keyed.insert field.name owned draft.fields }

/-- Adds fields one by one. -/
def addFields (draft : Draft) (fields : List Field) : Except DefinitionError Draft :=
  fields.foldlM addField draft

/-- Adds the fields of a finished schema. -/
def merge (draft : Draft) (parent : Schema) : Except DefinitionError Draft :=
  draft.addFields parent.fields

/-- The schema that the draft describes, unchecked. -/
def toSchema (draft : Draft) (serial : Nat) : Schema where
  serial := serial
  name := draft.name
  pluralName := draft.pluralName.getD (draft.name ++ "s")
  description := draft.description
  isEntity := draft.isEntity
  fields := draft.fields.map Prod.snd

/-- Checks the draft and hands out the schema under a serial number, which the caller gives to no
other schema. -/
def freeze (draft : Draft) (serial : Nat) : Except DefinitionError Schema :=
  let schema := draft.toSchema serial
  match schema.issues.result with
  | .ok () => .ok schema
  | .error issues => .error (.invalid draft.name issues)

theorem addField_eq_error (draft : Draft) (field : Field) :
    (∃ e, draft.addField field = .error e) ↔ Keyed.has field.name draft.fields = true := by
  unfold addField
  split <;> simp_all

end Draft

end EntityModel
