import EntityModel.Schema
import Mathlib.Data.List.Forall2

/-!
# What clients may know of a schema

Internal fields are for the server alone, and so is all that lies behind them. Two schemas are *alike*
if they differ in internal fields only, at whatever depth. The *client view* of a schema is what is left
of it without them; it stands for all schemas that are alike.

Results:
* `alike_iff_clientView`: schemas are alike if they have one client view.
-/
namespace EntityModel

/-! ## Likeness -/

mutual

/-- The schemas differ in internal fields only, and in what is behind them. -/
inductive Schema.Alike : Schema → Schema → Prop
  | intro {schema other : Schema} : schema.name = other.name → schema.pluralName = other.pluralName →
      schema.description = other.description → schema.isEntity = other.isEntity →
      List.Forall₂ Field.Alike (schema.fields.filter (!·.flags.internal))
        (other.fields.filter (!·.flags.internal)) → Schema.Alike schema other

/-- The fields differ in internal fields behind them only. -/
inductive Field.Alike : Field → Field → Prop
  | intro {field other : Field} : field.name = other.name → field.flags = other.flags →
      field.description = other.description → field.owner = other.owner →
      FieldType.Alike field.type other.type → Field.Alike field other

/-- The types are one scalar kind, or have one form and targets that are alike. -/
inductive FieldType.Alike : FieldType → FieldType → Prop
  | scalar (kind : ScalarKind) : FieldType.Alike (.scalar kind) (.scalar kind)
  | reference {target other : Schema} : Schema.Alike target other →
      FieldType.Alike (.reference target) (.reference other)
  | embedded {target other : Schema} : Schema.Alike target other →
      FieldType.Alike (.embedded target) (.embedded other)

end

/-! ## Client views -/

mutual

/-- The schema without internal fields, here and in all targets, and without its serial number. -/
def Schema.clientView : Schema → Schema
  | ⟨_, name, pluralName, description, isEntity, fields⟩ =>
    ⟨0, name, pluralName, description, isEntity, clientViewOf fields⟩
termination_by structural schema => schema

/-- The fields that are not internal, with what clients may know of their types. -/
def clientViewOf : List Field → List Field
  | [] => []
  | ⟨name, type, flags, description, owner⟩ :: rest =>
    if flags.internal then clientViewOf rest
    else ⟨name, type.clientView, flags, description, owner⟩ :: clientViewOf rest
termination_by structural fields => fields

/-- The type with the client view of its target. -/
def FieldType.clientView : FieldType → FieldType
  | .scalar kind => .scalar kind
  | .reference target => .reference target.clientView
  | .embedded target => .embedded target.clientView
termination_by structural type => type

end

/-- The field with what clients may know of its type. -/
def Field.clientView (field : Field) : Field := { field with type := field.type.clientView }

theorem clientViewOf_eq (fields : List Field) :
    clientViewOf fields = (fields.filter (!·.flags.internal)).map Field.clientView := by
  induction fields with
  | nil => rfl
  | cons field rest ih =>
    obtain ⟨name, type, flags, description, owner⟩ := field
    cases hi : flags.internal <;> simp [clientViewOf, hi, ih, Field.clientView]

namespace Schema

@[simp] theorem clientView_name (schema : Schema) : schema.clientView.name = schema.name := by
  cases schema; rfl

@[simp] theorem clientView_pluralName (schema : Schema) :
    schema.clientView.pluralName = schema.pluralName := by
  cases schema; rfl

@[simp] theorem clientView_description (schema : Schema) :
    schema.clientView.description = schema.description := by
  cases schema; rfl

@[simp] theorem clientView_isEntity (schema : Schema) :
    schema.clientView.isEntity = schema.isEntity := by
  cases schema; rfl

theorem clientView_fields (schema : Schema) : schema.clientView.fields = clientViewOf schema.fields := by
  cases schema; rfl

theorem clientView_eq_iff {schema other : Schema} : schema.clientView = other.clientView ↔
    schema.name = other.name ∧ schema.pluralName = other.pluralName ∧
      schema.description = other.description ∧ schema.isEntity = other.isEntity ∧
      clientViewOf schema.fields = clientViewOf other.fields := by
  cases schema; cases other
  simp [clientView]

end Schema

/-! ## One view for schemas that are alike -/

theorem FieldType.alike_iff {type other : FieldType}
    (ih : ∀ target, type.target? = some target → ∀ schema : Schema,
      target.Alike schema ↔ target.clientView = schema.clientView) :
    type.Alike other ↔ type.clientView = other.clientView := by
  constructor
  · intro h
    cases h with
    | scalar kind => rfl
    | reference h => simp [clientView, (ih _ rfl _).1 h]
    | embedded h => simp [clientView, (ih _ rfl _).1 h]
  · intro h
    cases type with
    | scalar kind =>
      cases other <;> simp only [clientView, FieldType.scalar.injEq, reduceCtorEq] at h
      exact h ▸ .scalar kind
    | reference target =>
      cases other <;> simp only [clientView, FieldType.reference.injEq, reduceCtorEq] at h
      exact .reference ((ih target rfl _).2 h)
    | embedded target =>
      cases other <;> simp only [clientView, FieldType.embedded.injEq, reduceCtorEq] at h
      exact .embedded ((ih target rfl _).2 h)

theorem Field.alike_iff {field other : Field}
    (ih : ∀ target, field.target? = some target → ∀ schema : Schema,
      target.Alike schema ↔ target.clientView = schema.clientView) :
    field.Alike other ↔ field.clientView = other.clientView := by
  have htype : field.type.Alike other.type ↔ field.type.clientView = other.type.clientView :=
    FieldType.alike_iff ih
  obtain ⟨name, type, flags, description, owner⟩ := field
  obtain ⟨name', type', flags', description', owner'⟩ := other
  simp only [clientView, Field.mk.injEq]
  constructor
  · rintro ⟨hname, hflags, hdescription, howner, h⟩
    exact ⟨hname, htype.1 h, hflags, hdescription, howner⟩
  · rintro ⟨hname, h, hflags, hdescription, howner⟩
    exact .intro hname hflags hdescription howner (htype.2 h)

/-- Lists of fields are pointwise alike if their views are equal. -/
theorem Field.forall₂_alike_iff {fields others : List Field}
    (ih : ∀ field ∈ fields, ∀ other, field.Alike other ↔ field.clientView = other.clientView) :
    List.Forall₂ Field.Alike fields others ↔
      fields.map Field.clientView = others.map Field.clientView := by
  induction fields generalizing others with
  | nil => cases others <;> simp
  | cons field rest ihrest =>
    cases others with
    | nil => simp
    | cons other others =>
      rw [List.forall₂_cons, List.map_cons, List.map_cons, List.cons.injEq,
        ih field List.mem_cons_self, ihrest fun f hf => ih f (List.mem_cons_of_mem _ hf)]

/-- Schemas are alike exactly if clients may know the same of them. -/
theorem Schema.alike_iff_clientView (schema other : Schema) :
    schema.Alike other ↔ schema.clientView = other.clientView := by
  induction schema using Schema.induct generalizing other with
  | step schema ih =>
    have hfields : List.Forall₂ Field.Alike (schema.fields.filter (!·.flags.internal))
        (other.fields.filter (!·.flags.internal)) ↔
          clientViewOf schema.fields = clientViewOf other.fields := by
      rw [clientViewOf_eq, clientViewOf_eq]
      exact Field.forall₂_alike_iff fun field hf _ =>
        Field.alike_iff fun target ht => ih field (List.mem_filter.1 hf).1 target ht
    rw [clientView_eq_iff, ← hfields]
    constructor
    · rintro ⟨hname, hplural, hdescription, hentity, h⟩
      exact ⟨hname, hplural, hdescription, hentity, h⟩
    · rintro ⟨hname, hplural, hdescription, hentity, h⟩
      exact .intro hname hplural hdescription hentity h

instance (schema other : Schema) : Decidable (schema.Alike other) :=
  decidable_of_iff' _ (schema.alike_iff_clientView other)

end EntityModel
