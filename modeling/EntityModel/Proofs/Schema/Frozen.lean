import EntityModel.Proofs.IssueTree
import EntityModel.Proofs.Keyed
import EntityModel.Schema.Draft

/-!
# Frozen schemas

A schema is *frozen* when a draft that was composed step by step passed its check, and so did
every schema that its fields are typed by. Nothing else hands out schemas, so what is proved here
holds of every schema that a catalog can be made of.

Results:
* `Composed.addFields`, `Composed.merge`: the remaining steps are made of these.
* `Frozen.ascending`, `Frozen.owned`, `Frozen.target`: the fields stand in order of name, belong
  to the schema, and are typed by frozen schemas.
* `Frozen.nameFault`, `Frozen.fieldFault`, `Frozen.flagIssues`: the check of one schema found
  nothing.
* `frozen_iff`: nothing more is asked of a frozen schema.
-/
namespace EntityModel

/-- A draft in the making: typed by schemas that satisfy `Target`, its fields come one by one. -/
inductive Draft.Composed (Target : Schema → Prop) : Draft → Prop
  | new (name : String) (isEntity : Bool) : Composed Target { name, isEntity }
  | withPlural {draft : Draft} (pluralName : String) : Composed Target draft →
      Composed Target (draft.withPlural pluralName)
  | withDescription {draft : Draft} (description : String) : Composed Target draft →
      Composed Target (draft.withDescription description)
  | addField {draft next : Draft} {field : Field} : Composed Target draft →
      (∀ target, field.target? = some target → Target target) → draft.addField field = .ok next →
      Composed Target next

/-- A schema that was composed of frozen ones and passed its check. -/
inductive Schema.Frozen : Schema → Prop
  | freeze {draft : Draft} {serial : Nat} {schema : Schema} : draft.Composed Frozen →
      draft.freeze serial = .ok schema → Frozen schema

namespace Draft

theorem addField_eq_ok {draft next : Draft} {field : Field} (h : draft.addField field = .ok next) :
    next = { draft with
      fields := Keyed.insert field.name { field with owner := some draft.name } draft.fields } := by
  unfold addField at h
  split at h
  · cases h
  · cases h; rfl

theorem freeze_eq_ok {draft : Draft} {serial : Nat} {schema : Schema}
    (h : draft.freeze serial = .ok schema) :
    schema = draft.toSchema serial ∧ schema.issues.isEmpty = true := by
  unfold freeze IssueTree.result at h
  by_cases he : (draft.toSchema serial).issues.isEmpty = true
  · simp only [he, if_true] at h
    cases h
    exact ⟨rfl, he⟩
  · simp [he] at h

namespace Composed

variable {Target : Schema → Prop} {draft next : Draft}

theorem addFields {fields : List Field} (hd : draft.Composed Target)
    (hf : ∀ field ∈ fields, ∀ target, field.target? = some target → Target target)
    (h : draft.addFields fields = .ok next) : next.Composed Target := by
  induction fields generalizing draft with
  | nil => cases h; exact hd
  | cons field rest ih =>
    simp only [Draft.addFields, List.foldlM_cons] at h
    cases hfirst : draft.addField field with
    | error e => rw [hfirst] at h; cases h
    | ok first =>
      rw [hfirst] at h
      exact ih (hd.addField (hf field (List.mem_cons_self ..)) hfirst)
        (fun other ho => hf other (List.mem_cons_of_mem _ ho)) h

/-- Every entry of a draft is a field under its own name that belongs to the draft. -/
theorem entry (hd : draft.Composed Target) {key : String} {field : Field}
    (h : (key, field) ∈ draft.fields) :
    field.name = key ∧ field.owner = some draft.name ∧
      ∀ target, field.target? = some target → Target target := by
  induction hd generalizing key field with
  | new => cases h
  | withPlural _ _ ih => exact ih h
  | withDescription _ _ ih => exact ih h
  | addField _ ht hadd ih =>
    rw [addField_eq_ok hadd] at h ⊢
    rcases Keyed.mem_insert h with he | ho
    · cases he; exact ⟨rfl, rfl, ht⟩
    · exact ih ho

theorem ascending (hd : draft.Composed Target) : Keyed.Ascending draft.fields := by
  induction hd with
  | new => exact List.Pairwise.nil
  | withPlural _ _ ih => exact ih
  | withDescription _ _ ih => exact ih
  | addField _ _ hadd ih => rw [addField_eq_ok hadd]; exact ih.insert _ _

/-- The fields of a draft stand in strictly ascending order of name. -/
theorem pairwise (hd : draft.Composed Target) :
    (draft.fields.map Prod.snd).Pairwise fun a b => a.name < b.name := by
  have hk := hd.ascending
  simp only [Keyed.Ascending, Keyed.keys, List.pairwise_map] at hk
  rw [List.pairwise_map]
  refine hk.imp_of_mem fun {a b} ha hb hlt => ?_
  rw [(hd.entry ha).1, (hd.entry hb).1]
  exact hlt

/-- A draft without fields. -/
theorem start (name : String) (isEntity : Bool) (pluralName description : Option String) :
    Composed Target { name, isEntity, pluralName, description } := by
  have hnamed : Composed Target { name, isEntity, pluralName } := by
    cases pluralName with
    | none => exact .new name isEntity
    | some pluralName => exact (Composed.new name isEntity).withPlural pluralName
  cases description with
  | none => exact hnamed
  | some description => exact hnamed.withDescription description

/-- Fields of the draft in ascending order, after those that it has, can be added one by one. -/
theorem append {fields : List Field} (hd : draft.Composed Target)
    (ha : (Keyed.keys draft.fields ++ fields.map (·.name)).Pairwise (· < ·))
    (ho : ∀ field ∈ fields, field.owner = some draft.name)
    (ht : ∀ field ∈ fields, ∀ target, field.target? = some target → Target target) :
    Composed Target
      { draft with fields := draft.fields ++ fields.map fun field => (field.name, field) } := by
  induction fields generalizing draft with
  | nil => simpa using hd
  | cons field rest ih =>
    have hlast : ∀ key ∈ Keyed.keys draft.fields, key < field.name := fun key hk =>
      (List.pairwise_append.1 ha).2.2 key hk field.name (List.mem_cons_self ..)
    have hnew : Keyed.has field.name draft.fields = false := by
      rw [Keyed.has, Keyed.get?_eq_none fun hk => String.lt_irrefl _ (hlast _ hk)]
      rfl
    have hfield : { field with owner := some draft.name } = field := by
      have := ho field (List.mem_cons_self ..)
      cases field
      simp_all
    have hadd : draft.addField field
        = .ok { draft with fields := draft.fields ++ [(field.name, field)] } := by
      simp [Draft.addField, hnew, hfield, Keyed.insert_last hlast]
    have := ih (hd.addField (ht field (List.mem_cons_self ..)) hadd)
      (by simpa [Keyed.keys] using ha) (fun other h => ho other (List.mem_cons_of_mem _ h))
      (fun other h => ht other (List.mem_cons_of_mem _ h))
    simpa using this

end Composed

end Draft

namespace Schema

theorem issues_isEmpty_iff (schema : Schema) :
    schema.issues.isEmpty = true ↔ schema.nameIssues = [] ∧
      ∀ field ∈ schema.fields, field.nameIssues = [] ∧ field.flagIssues = [] := by
  have hroot : (⟨schema.nameIssues, []⟩ : IssueTree).isEmpty = true ↔ schema.nameIssues = [] := by
    simp [IssueTree.isEmpty_eq, IssueTree.allEmpty]
  unfold issues
  rw [IssueTree.isEmpty_foldl_addAllFor, IssueTree.isEmpty_foldl_addAllFor, hroot, and_assoc]
  constructor
  · rintro ⟨hn, hf, hg⟩
    exact ⟨hn, fun field h => ⟨hf field h, hg field h⟩⟩
  · rintro ⟨hn, h⟩
    exact ⟨hn, fun field hf => (h field hf).1, fun field hf => (h field hf).2⟩

namespace Frozen

variable {schema : Schema}

/-- What stands behind a frozen schema. -/
theorem draft (h : schema.Frozen) : ∃ (draft : Draft) (serial : Nat), draft.Composed Frozen ∧
    schema = draft.toSchema serial ∧ schema.issues.isEmpty = true := by
  obtain ⟨hd, hf⟩ := h
  exact ⟨_, _, hd, Draft.freeze_eq_ok hf⟩

/-- The fields stand in strictly ascending order of name. -/
theorem ascending (h : schema.Frozen) : schema.fields.Pairwise fun a b => a.name < b.name := by
  obtain ⟨draft, serial, hd, rfl, -⟩ := h.draft
  exact hd.pairwise

theorem field (h : schema.Frozen) {field : Field} (hf : field ∈ schema.fields) :
    field.owner = some schema.name ∧ ∀ target, field.target? = some target → target.Frozen := by
  obtain ⟨draft, serial, hd, rfl, -⟩ := h.draft
  simp only [Draft.toSchema, List.mem_map] at hf
  obtain ⟨⟨key, other⟩, he, rfl⟩ := hf
  exact (hd.entry he).2

theorem owned (h : schema.Frozen) {field : Field} (hf : field ∈ schema.fields) :
    field.owner = some schema.name :=
  (h.field hf).1

theorem target (h : schema.Frozen) {field : Field} (hf : field ∈ schema.fields) {target : Schema}
    (ht : field.target? = some target) : target.Frozen :=
  (h.field hf).2 target ht

theorem nameFault (h : schema.Frozen) : Name.schemaNameFault? schema.name = none := by
  obtain ⟨-, -, -, -, he⟩ := h.draft
  simpa [nameIssues] using ((issues_isEmpty_iff schema).1 he).1

theorem fieldFault (h : schema.Frozen) {field : Field} (hf : field ∈ schema.fields) :
    Name.fieldNameFault? field.name = none := by
  obtain ⟨-, -, -, -, he⟩ := h.draft
  simpa [Field.nameIssues] using (((issues_isEmpty_iff schema).1 he).2 field hf).1

theorem flagIssues (h : schema.Frozen) {field : Field} (hf : field ∈ schema.fields) :
    field.flagIssues = [] := by
  obtain ⟨-, -, -, -, he⟩ := h.draft
  exact (((issues_isEmpty_iff schema).1 he).2 field hf).2

/-- Two fields of one name are one field. -/
theorem eq_of_name_eq (h : schema.Frozen) {a b : Field} (ha : a ∈ schema.fields)
    (hb : b ∈ schema.fields) (he : a.name = b.name) : a = b := by
  have hne : ∀ {x y : Field}, x.name < y.name → x.name ≠ y.name :=
    fun hlt heq => String.lt_irrefl _ (heq ▸ hlt)
  refine List.Pairwise.forall_of_forall_of_flip (R := fun x y => x.name = y.name → x = y)
    (fun _ _ _ => rfl) (h.ascending.imp fun hlt heq => absurd heq (hne hlt))
    (h.ascending.imp fun hlt heq => absurd heq.symm (hne hlt)) ha hb he

end Frozen

/-- A schema is frozen exactly when its fields ascend, belong to it and are typed by frozen
schemas, and its check finds nothing. -/
theorem frozen_iff (schema : Schema) : schema.Frozen ↔
    (schema.fields.Pairwise fun a b => a.name < b.name) ∧
      (∀ field ∈ schema.fields, field.owner = some schema.name ∧
        ∀ target, field.target? = some target → target.Frozen) ∧
      schema.issues.isEmpty = true := by
  constructor
  · intro h
    obtain ⟨-, -, -, -, he⟩ := h.draft
    exact ⟨h.ascending, fun field hf => h.field hf, he⟩
  · intro ⟨ha, hf, he⟩
    let named : Draft :=
      { name := schema.name, isEntity := schema.isEntity, pluralName := some schema.pluralName,
        description := schema.description }
    have hnamed : named.Composed Frozen := .start ..
    have hall := hnamed.append
      (by simpa [named, Keyed.keys, List.pairwise_map] using ha)
      (fun field h => (hf field h).1) (fun field h => (hf field h).2)
    have hschema : Draft.toSchema { named with
        fields := named.fields ++ schema.fields.map fun field => (field.name, field) }
          schema.serial = schema := by
      cases schema
      simp [Draft.toSchema, named, Function.comp_def]
    have hfreeze : Draft.freeze { named with
        fields := named.fields ++ schema.fields.map fun field => (field.name, field) }
          schema.serial = .ok schema := by
      simp [Draft.freeze, hschema, IssueTree.result, he]
    exact .freeze hall hfreeze

end Schema

/-- The fields of a finished schema are typed by frozen schemas again. -/
theorem Draft.Composed.merge {draft next : Draft} {parent : Schema}
    (hd : draft.Composed Schema.Frozen) (hp : parent.Frozen) (h : draft.merge parent = .ok next) :
    next.Composed Schema.Frozen :=
  hd.addFields (fun _ hf _ ht => hp.target hf ht) h

/-! ## A sample

An entity with an identifier, a reference, and a shape that embeds another. -/

namespace Schema.Sample

def detail : Schema where
  serial := 0
  name := "Detail"
  pluralName := "Details"
  description := none
  isEntity := false
  fields := [{ Field.scalar "note" .string with owner := some "Detail" }]

def step : Schema where
  serial := 1
  name := "Step"
  pluralName := "Steps"
  description := none
  isEntity := false
  fields := [{ Field.ofSchema "detail" detail with owner := some "Step" },
    { Field.scalar "stepName" .string with owner := some "Step", flags := { required := true } }]

def category : Schema where
  serial := 2
  name := "Category"
  pluralName := "Categories"
  description := some "What workflows are filed under"
  isEntity := true
  fields := [{ Field.scalar "createdBy" .string with owner := some "Category", flags := { audit := true } },
    { Field.scalar "label" .string with owner := some "Category" }]

def workflow : Schema where
  serial := 3
  name := "Workflow"
  pluralName := "Workflows"
  description := none
  isEntity := true
  fields := [{ Field.identifier "_id" with owner := some "Workflow" },
    { Field.ofSchema "category" category with owner := some "Workflow" },
    { Field.ofSchema "steps" step with owner := some "Workflow", flags := { array := true } },
    { Field.scalar "token" .string with owner := some "Workflow", flags := { internal := true } }]

/-- Registered in this order: a category and the workflows that refer to it. -/
def schemas : List Schema := [category, workflow]

theorem detail_frozen : detail.Frozen :=
  (frozen_iff detail).2 ⟨by decide, by simp [detail, Field.scalar, Field.ofType, Field.target?,
    FieldType.target?], by decide⟩

theorem step_frozen : step.Frozen := by
  refine (frozen_iff step).2 ⟨by decide, ?_, by decide⟩
  simp [step, Field.scalar, Field.ofSchema, Field.ofType, Field.target?, FieldType.ofSchema,
    FieldType.target?, detail_frozen, show detail.isEntity = false from rfl]

theorem category_frozen : category.Frozen := by
  refine (frozen_iff category).2 ⟨by decide, ?_, by decide⟩
  simp [category, Field.scalar, Field.ofType, Field.target?, FieldType.target?]

theorem workflow_frozen : workflow.Frozen := by
  refine (frozen_iff workflow).2 ⟨by decide, ?_, by decide⟩
  simp [workflow, Field.identifier, Field.scalar, Field.ofSchema, Field.ofType, Field.target?,
    FieldType.ofSchema, FieldType.target?, step_frozen, category_frozen,
    show step.isEntity = false from rfl, show category.isEntity = true from rfl]

theorem schemas_frozen : ∀ schema ∈ schemas, schema.Frozen := by
  simp [schemas, category_frozen, workflow_frozen]

end Schema.Sample

end EntityModel
