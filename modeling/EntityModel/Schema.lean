import EntityModel.Scalar

/-!
# Schemas

A schema describes an entity, a collection of documents with an identity of their own, or an
embedded shape that lives inside other documents. Its fields are in ascending order of name. A
field holds a scalar, refers to documents of another schema, or embeds its shape.

Two schemas are the same instance when they are equal; the serial number tells apart instances
with the same content.

Results:
* `Schema.induct`: what holds of a schema whenever it holds of its fields' targets holds of all.
* `Schema.decEq`: sameness of instances can be decided.
-/
namespace EntityModel

/-- What sets a field apart besides its name and type. -/
structure Flags where
  required : Bool := false
  unique : Bool := false
  array : Bool := false
  audit : Bool := false
  internal : Bool := false
  id : Bool := false
  encrypted : Bool := false
deriving DecidableEq, Repr

mutual

/-- What a field holds. -/
inductive FieldType where
  | scalar (kind : ScalarKind)
  | reference (target : Schema)
  | embedded (target : Schema)

/-- A field, with the name of the schema that it belongs to if it belongs to one. -/
structure Field where
  name : String
  type : FieldType
  flags : Flags
  description : Option String
  owner : Option String

/-- A schema. -/
structure Schema where
  serial : Nat
  name : String
  pluralName : String
  description : Option String
  isEntity : Bool
  fields : List Field

end

/-! ## Field types -/

/-- The type of a field that is typed by a schema: entities are referred to, other schemas are
embedded. -/
def FieldType.ofSchema (target : Schema) : FieldType :=
  if target.isEntity then reference target else embedded target

/-- The schema that types the field. -/
def FieldType.target? : FieldType → Option Schema
  | scalar _ => none
  | reference target => some target
  | embedded target => some target

/-- The scalar kind of the field. -/
def FieldType.scalar? : FieldType → Option ScalarKind
  | scalar kind => some kind
  | _ => none

/-! ## Fields -/

namespace Field

/-- A field that belongs to no schema yet. -/
def ofType (name : String) (type : FieldType) : Field := ⟨name, type, {}, none, none⟩

/-- A scalar field. -/
def scalar (name : String) (kind : ScalarKind) : Field := ofType name (.scalar kind)

/-- An identifier. -/
def identifier (name : String) : Field :=
  { scalar name .id with flags := { id := true } }

/-- A field typed by a schema. -/
def ofSchema (name : String) (target : Schema) : Field := ofType name (.ofSchema target)

/-- The schema that types the field. -/
def target? (field : Field) : Option Schema := field.type.target?

/-- The field refers to documents of another schema. -/
def isReference (field : Field) : Bool :=
  match field.type with
  | .reference _ => true
  | _ => false

/-- The field embeds a shape. -/
def isEmbedded (field : Field) : Bool :=
  match field.type with
  | .embedded _ => true
  | _ => false

/-- The field holds a scalar. -/
def isScalar (field : Field) : Bool :=
  match field.type with
  | .scalar _ => true
  | _ => false

/-- The fields of the target, or none. -/
def childFields (field : Field) : List Field :=
  match field.target? with
  | some target => target.fields
  | none => []

end Field

namespace Schema

/-! ## Fields of a schema -/

/-- The field with this name. -/
def field? (schema : Schema) (name : String) : Option Field :=
  schema.fields.find? (·.name == name)

/-- Names of the fields that clients never see. -/
def internalFields (schema : Schema) : List String :=
  (schema.fields.filter (·.flags.internal)).map (·.name)

/-- Names of the fields that the server manages. -/
def auditFields (schema : Schema) : List String :=
  (schema.fields.filter (·.flags.audit)).map (·.name)

/-- Fields to be encrypted at rest. -/
def encryptedFields (schema : Schema) : List Field := schema.fields.filter (·.flags.encrypted)

/-- The first identifier field. -/
def idField? (schema : Schema) : Option Field := schema.fields.find? (·.flags.id)

/-- The key of documents without an identifier field. -/
def defaultIdKey : String := "_id"

/-- The key that identifies a document of the schema. -/
def idKey (schema : Schema) : String :=
  match schema.idField? with
  | some field => field.name
  | none => defaultIdKey

/-! ## Sameness -/

mutual

/-- Decides whether two schemas are equal, serial numbers first. A target that is one object with
the other is not compared again: schemas share their targets, and would be entered on every way to
them. -/
def decEq : (a b : Schema) → Decidable (a = b)
  | ⟨s, n, p, d, e, fs⟩, ⟨s', n', p', d', e', fs'⟩ =>
    if h : s = s' ∧ n = n' ∧ p = p' ∧ d = d' ∧ e = e' then
      match decEqFields fs fs' with
      | isTrue h' => isTrue (by simp [h, h'])
      | isFalse h' => isFalse (by simp [h'])
    else isFalse (by simp; grind)
termination_by structural a => a

/-- Decides whether two lists of fields are equal. -/
def decEqFields : (as bs : List Field) → Decidable (as = bs)
  | [], [] => isTrue rfl
  | [], _ :: _ => isFalse (by simp)
  | _ :: _, [] => isFalse (by simp)
  | a :: as, b :: bs =>
    match decEqField a b with
    | isTrue h =>
      match decEqFields as bs with
      | isTrue h' => isTrue (by simp [h, h'])
      | isFalse h' => isFalse (by simp [h'])
    | isFalse h => isFalse (by simp [h])
termination_by structural as => as

/-- Decides whether two fields are equal. -/
def decEqField : (a b : Field) → Decidable (a = b)
  | ⟨n, t, f, d, o⟩, ⟨n', t', f', d', o'⟩ =>
    if h : n = n' ∧ f = f' ∧ d = d' ∧ o = o' then
      match decEqType t t' with
      | isTrue h' => isTrue (by simp [h, h'])
      | isFalse h' => isFalse (by simp [h'])
    else isFalse (by simp; grind)
termination_by structural a => a

/-- Decides whether two field types are equal. -/
def decEqType : (a b : FieldType) → Decidable (a = b)
  | .scalar j, .scalar k => if h : j = k then isTrue (by simp [h]) else isFalse (by simp [h])
  | .reference s, .reference t =>
    match withPtrEqDecEq s t fun _ => decEq s t with
    | isTrue h => isTrue (by simp [h])
    | isFalse h => isFalse (by simp [h])
  | .embedded s, .embedded t =>
    match withPtrEqDecEq s t fun _ => decEq s t with
    | isTrue h => isTrue (by simp [h])
    | isFalse h => isFalse (by simp [h])
  | .scalar _, .reference _ => isFalse (by simp)
  | .scalar _, .embedded _ => isFalse (by simp)
  | .reference _, .scalar _ => isFalse (by simp)
  | .reference _, .embedded _ => isFalse (by simp)
  | .embedded _, .scalar _ => isFalse (by simp)
  | .embedded _, .reference _ => isFalse (by simp)
termination_by structural a => a

end

instance : DecidableEq Schema := fun a b => withPtrEqDecEq a b fun _ => decEq a b

end Schema

instance : DecidableEq Field := Schema.decEqField

/-! ## Induction -/

/-- What holds of every schema whose fields' targets have it holds of all schemas. -/
theorem Schema.induct {P : Schema → Prop}
    (step : ∀ schema, (∀ field ∈ schema.fields, ∀ target, field.target? = some target → P target) →
      P schema) (schema : Schema) : P schema := by
  refine Schema.rec
    (motive_1 := fun type => ∀ target, type.target? = some target → P target)
    (motive_2 := fun field => ∀ target, field.target? = some target → P target)
    (motive_3 := P)
    (motive_4 := fun fields => ∀ field ∈ fields, ∀ target, field.target? = some target → P target)
    ?_ ?_ ?_ ?_ ?_ ?_ ?_ schema
  · intro _ target h; simp [FieldType.target?] at h
  · intro target ih other h; simp [FieldType.target?] at h; exact h ▸ ih
  · intro target ih other h; simp [FieldType.target?] at h; exact h ▸ ih
  · intro name type flags description owner ih; exact ih
  · intro serial name pluralName description isEntity fields ih; exact step _ ih
  · simp
  · intro field rest hf hr other ho
    rcases List.mem_cons.1 ho with rfl | ho
    · exact hf
    · exact hr other ho

end EntityModel
