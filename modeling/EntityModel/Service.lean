import EntityModel.Error
import EntityModel.Operation

/-!
# The service

Carries out operations on the entities of a catalog. An operation finds the entity by name, reads
its argument, adds the plan of joins where documents are read, and turns to the store under the
name that the entity is registered by.

Results:
* `required_isNull`: a required argument is there and not `null`.
-/
namespace EntityModel

/-- The arguments of an operation, under their names. -/
abbrev Args := Members

namespace Service

/-- The outcome of an operation, and the store after it. -/
abbrev Outcome := Except Error Json × Store

/-- The entity with this name. -/
def entity (catalog : Catalog) (name : String) : Except Error Schema :=
  match catalog.find name with
  | .error cause => .error (.catalog cause)
  | .ok schema =>
    if schema.isEntity then .ok schema
    else .error (.resolve (.unknownOperation (name ++ " is not an entity schema")))

/-- The argument of an operation, which must not be `null`. -/
def required (operation : Operation) (schema : Schema) (args : Args) : Except Error Json :=
  let name := (operation.argumentOn schema).name
  match Keyed.get? name args with
  | none => .error (.resolve (.missingArgument (operation.nameOn schema) name))
  | some value =>
    if value.isNull then .error (.resolve (.missingArgument (operation.nameOn schema) name))
    else .ok value

/-- The argument of an operation, which must be a text. -/
def requiredId (operation : Operation) (schema : Schema) (args : Args) : Except Error String := do
  match ← required operation schema args with
  | .str id => .ok id
  | _ => .error (.resolve (.invalidArgument "id" "a string"))

/-- The argument of an operation, which must be an object. -/
def requiredDocument (operation : Operation) (schema : Schema) (args : Args) :
    Except Error Members := do
  match ← required operation schema args with
  | .obj document => .ok document
  | _ => .error (.resolve (.invalidArgument "doc" "an object"))

/-- What a store operation answers with, as the outcome of an operation. -/
def outcome {α : Type} (toJson : α → Json) (answer : Except ResolveError α × Store) : Outcome :=
  match answer with
  | (.ok value, store) => (.ok (toJson value), store)
  | (.error cause, store) => (.error (.resolve cause), store)

/-- The query that finds the document with an id. -/
def byId (schema : Schema) (id : String) : FindQuery :=
  { top := 1, filter := [(schema.idKey, .str id)] }

/-- The query among the arguments; without one every document is found. -/
def queryOf (args : Args) : Except Error FindQuery :=
  match Keyed.get? "q" args with
  | none => .ok {}
  | some .null => .ok {}
  | some value =>
    match FindQuery.ofJson value with
    | .ok query => .ok query
    | .error cause => .error (.query cause)

/-- Carries out an operation on an entity. -/
def runOn (schema : Schema) (operation : Operation) (args : Args) (store : Store) : Outcome :=
  match operation with
  | .insert =>
    match requiredDocument .insert schema args with
    | .ok document => outcome .str (store.add schema.name document)
    | .error e => (.error e, store)
  | .update =>
    match requiredDocument .update schema args with
    | .ok document => outcome .str (store.update schema.name document)
    | .error e => (.error e, store)
  | .getOne =>
    match requiredId .getOne schema args with
    | .ok id => outcome Page.toJson (store.find schema.name (byId schema id) schema.joins)
    | .error e => (.error e, store)
  | .getMany =>
    match queryOf args with
    | .ok query =>
      let joins := if query.populate then schema.joins else []
      outcome Page.toJson (store.find schema.name query joins)
    | .error e => (.error e, store)
  | .delete =>
    match requiredId .delete schema args with
    | .ok id => outcome .str (store.delete schema.name id)
    | .error e => (.error e, store)

/-- Carries out an operation on the entity with this name. -/
def run (catalog : Catalog) (operation : Operation) (name : String) (args : Args) (store : Store) :
    Outcome :=
  match entity catalog name with
  | .ok schema => runOn schema operation args store
  | .error e => (.error e, store)

theorem required_isNull {operation : Operation} {schema : Schema} {args : Args} {value : Json}
    (h : required operation schema args = .ok value) : value.isNull = false := by
  unfold required at h
  simp only at h
  split at h
  · cases h
  · split at h
    · cases h
    · next hn => cases h; simpa using hn

end Service

end EntityModel
