import EntityModel.Proofs.Name
import EntityModel.Proofs.Schema.Reach
import EntityModel.Schema.TypeName

/-!
# Well-formed schemas

What the generators take for granted of a schema, said without drafts and checks: its fields can be
found, named and told apart by their flags, and the names stay within their bounds. A schema is
frozen exactly when it is well-formed and so is every schema that it leads to.

Results:
* `Field.flagIssues_eq_nil_iff`: which flags can stand together, and with which types.
* `WellFormed.frozen`, `Frozen.wellFormed`: one schema, its targets aside.
* `frozen_iff_wellFormed`: a schema with all that it leads to.
-/
namespace EntityModel

/-! ## Flags -/

namespace FieldType

/-- A scalar of a kind whose values identify a document. -/
def Identifies (type : FieldType) : Prop :=
  type = .scalar .id ∨ type = .scalar .number ∨ type = .scalar .string

theorem idIssues_eq_nil_iff (type : FieldType) : type.idIssues = [] ↔ type.Identifies := by
  cases type with
  | scalar kind => cases kind <;> simp [idIssues, Identifies, ScalarKind.supportsId]
  | reference target | embedded target => simp [idIssues, Identifies]

theorem isOpaque_iff (type : FieldType) :
    type.scalar?.any ScalarKind.isOpaque = true ↔ type = .scalar .mixed := by
  cases type <;> simp [scalar?, ScalarKind.isOpaque]

end FieldType

namespace Field

/-- The check of the flags finds nothing exactly when a field is not both internal and audit, an
identifier holds one value of a kind that identifies, and a unique field has a shape that can be
compared. -/
theorem flagIssues_eq_nil_iff (field : Field) : field.flagIssues = [] ↔
    ¬ (field.flags.internal = true ∧ field.flags.audit = true) ∧
      (field.flags.id = true → field.type.Identifies ∧ field.flags.array = false) ∧
      (field.flags.unique = true → field.isEmbedded = false ∧ field.type ≠ .scalar .mixed) := by
  have hid := field.type.idIssues_eq_nil_iff
  have hopaque := field.type.isOpaque_iff
  unfold flagIssues
  simp only [List.append_eq_nil_iff, and_assoc]
  refine and_congr ?_ (and_congr ?_ ?_)
  · simp
  · split <;> simp_all
  · split <;> simp_all

end Field

namespace Schema

/-! ## Schemas -/

/-- A schema by itself, whatever its fields are typed by. -/
structure WellFormed (schema : Schema) : Prop where
  ascending : schema.fields.Pairwise fun a b => a.name < b.name
  found : ∀ name field, schema.field? name = some field ↔
    field ∈ schema.fields ∧ field.name = name
  owned : ∀ field ∈ schema.fields, field.owner = some schema.name
  typeName : ∀ field ∈ schema.fields, field.typeName = .ok
    (if field.isEmbedded then schema.name ++ Text.capitalize field.name
      else Text.capitalize field.name)
  internal : ∀ name, name ∈ schema.internalFields ↔
    ∃ field ∈ schema.fields, field.flags.internal = true ∧ field.name = name
  internal_ascending : schema.internalFields.Pairwise (· < ·)
  audit : ∀ name, name ∈ schema.auditFields ↔
    ∃ field ∈ schema.fields, field.flags.audit = true ∧ field.name = name
  audit_ascending : schema.auditFields.Pairwise (· < ·)
  disjoint : ∀ name ∈ schema.internalFields, name ∉ schema.auditFields
  id : ∀ field ∈ schema.fields, field.flags.id = true →
    field.type.Identifies ∧ field.flags.array = false
  unique : ∀ field ∈ schema.fields, field.flags.unique = true →
    field.isEmbedded = false ∧ field.type ≠ .scalar .mixed
  fieldName : ∀ field ∈ schema.fields, Name.IsFieldName field.name
  name : Name.IsSchemaName schema.name

variable {schema : Schema}

theorem mem_internalFields (schema : Schema) (name : String) : name ∈ schema.internalFields ↔
    ∃ field ∈ schema.fields, field.flags.internal = true ∧ field.name = name := by
  simp [internalFields, and_assoc]

theorem mem_auditFields (schema : Schema) (name : String) : name ∈ schema.auditFields ↔
    ∃ field ∈ schema.fields, field.flags.audit = true ∧ field.name = name := by
  simp [auditFields, and_assoc]

/-- Every field of a frozen schema is found under its name, and nothing else is. -/
theorem Frozen.field?_eq_some_iff (h : schema.Frozen) (name : String) (field : Field) :
    schema.field? name = some field ↔ field ∈ schema.fields ∧ field.name = name := by
  constructor
  · intro hf
    exact ⟨List.mem_of_find?_eq_some hf, by simpa using List.find?_some hf⟩
  · rintro ⟨hf, rfl⟩
    have hsome : (schema.field? field.name).isSome = true :=
      List.find?_isSome.2 ⟨field, hf, by simp⟩
    obtain ⟨other, ho⟩ := Option.isSome_iff_exists.1 hsome
    have hother : other = field :=
      h.eq_of_name_eq (List.mem_of_find?_eq_some ho) hf (by simpa using List.find?_some ho)
    rw [ho, hother]

/-- A frozen schema is well-formed. -/
theorem Frozen.wellFormed (h : schema.Frozen) : schema.WellFormed where
  ascending := h.ascending
  found := h.field?_eq_some_iff
  owned _ hf := h.owned hf
  typeName field hf := by
    simp only [Field.typeName, h.owned hf]
    split <;> rfl
  internal := mem_internalFields schema
  internal_ascending := List.pairwise_map.2 (h.ascending.filter _)
  audit := mem_auditFields schema
  audit_ascending := List.pairwise_map.2 (h.ascending.filter _)
  disjoint := by
    intro name hi ha
    obtain ⟨field, hf, hinternal, rfl⟩ := (mem_internalFields schema name).1 hi
    obtain ⟨other, ho, haudit, hname⟩ := (mem_auditFields schema field.name).1 ha
    obtain rfl := h.eq_of_name_eq ho hf hname
    exact ((Field.flagIssues_eq_nil_iff other).1 (h.flagIssues hf)).1 ⟨hinternal, haudit⟩
  id field hf := ((Field.flagIssues_eq_nil_iff field).1 (h.flagIssues hf)).2.1
  unique field hf := ((Field.flagIssues_eq_nil_iff field).1 (h.flagIssues hf)).2.2
  fieldName field hf := (Name.fieldNameFault_iff field.name).1 (h.fieldFault hf)
  name := (Name.schemaNameFault_iff schema.name).1 h.nameFault

/-- A well-formed schema passes its check. -/
theorem WellFormed.issues_isEmpty (h : schema.WellFormed) : schema.issues.isEmpty = true := by
  refine (issues_isEmpty_iff schema).2 ⟨?_, fun field hf => ⟨?_, ?_⟩⟩
  · simp [nameIssues, (Name.schemaNameFault_iff schema.name).2 h.name]
  · simp [Field.nameIssues, (Name.fieldNameFault_iff field.name).2 (h.fieldName field hf)]
  · refine (Field.flagIssues_eq_nil_iff field).2 ⟨?_, h.id field hf, h.unique field hf⟩
    rintro ⟨hinternal, haudit⟩
    exact h.disjoint _ ((h.internal field.name).2 ⟨field, hf, hinternal, rfl⟩)
      ((h.audit field.name).2 ⟨field, hf, haudit, rfl⟩)

/-- A well-formed schema that is typed by frozen ones is frozen. -/
theorem WellFormed.frozen (h : schema.WellFormed)
    (ht : ∀ field ∈ schema.fields, ∀ target, field.target? = some target → target.Frozen) :
    schema.Frozen :=
  (frozen_iff schema).2
    ⟨h.ascending, fun field hf => ⟨h.owned field hf, ht field hf⟩, h.issues_isEmpty⟩

/-- **Well-formedness.** Schemas that builders hand out are those that are well-formed together with
every schema that they lead to, over embedded fields and references, at any depth. -/
theorem frozen_iff_wellFormed (schema : Schema) :
    schema.Frozen ↔ ∀ chain inner, schema.Leads chain inner → inner.WellFormed := by
  constructor
  · intro h chain inner hl
    exact (hl.frozen h).wellFormed
  · intro h
    induction schema using Schema.induct with
    | step schema ih =>
      refine (h [] schema (.here schema)).frozen fun field hf target ht => ?_
      exact ih field hf target ht fun chain inner hl => h (field :: chain) inner (.through hf ht hl)

end Schema

end EntityModel
