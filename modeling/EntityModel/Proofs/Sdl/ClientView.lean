import EntityModel.Proofs.Catalog.Acceptance
import EntityModel.Proofs.Schema.ClientView
import EntityModel.Sdl.Document
import EntityModel.Selection

/-!
# What is generated for clients

The document of a catalog and the selections of its schemas are made from client views: internal
fields are left out before a type is named, a shape is declared or a field is refused, so it makes
no difference what they are and what is behind them.

Results:
* `entityBlocks_clientView`: entities have the blocks of their client views.
* `Schema.selectionAt_clientView`: a schema is read as its client view.
* `alike_same_text`: schemas that are alike have the same document and the same selections.
-/
namespace EntityModel

open Schema (selectionOf selectionOfType)

/-! ## Lines and blocks -/

namespace Field

variable (field : Field)

@[simp] theorem clientView_isEmbedded : field.clientView.isEmbedded = field.isEmbedded := by
  obtain ⟨name, type, flags, description, owner⟩ := field
  cases type <;> rfl

@[simp] theorem clientView_typeName : field.clientView.typeName = field.typeName := by
  unfold typeName
  rw [clientView_isEmbedded]
  rfl

@[simp] theorem clientView_flags : field.clientView.flags = field.flags := rfl

theorem clientView_itemType (side : Side) : field.clientView.itemType side = field.itemType side := by
  have hname : field.clientView.embeddedName side = field.embeddedName side := by
    rw [embeddedName, embeddedName, clientView_typeName]
  obtain ⟨name, type, flags, description, owner⟩ := field
  cases type with
  | scalar kind => rfl
  | reference target => cases side <;> simp [itemType, clientView, FieldType.clientView]
  | embedded target =>
    simp only [itemType, hname]
    rfl

theorem clientView_typeRef (side : Side) : field.clientView.typeRef side = field.typeRef side := by
  rw [typeRef, typeRef, clientView_itemType]
  rfl

end Field

namespace Sdl

theorem fieldLine_clientView (side : Side) (field : Field) :
    fieldLine side field.clientView = fieldLine side field := by
  rw [fieldLine, fieldLine, Field.clientView_typeRef]
  rfl

/-- Internal fields have no line on either side. -/
theorem linesOf_clientView (side : Side) (fields : List Field) :
    linesOf side (clientViewOf fields) = linesOf side fields := by
  have hshown : (clientViewOf fields).filter (·.isShown side)
      = (fields.filter (·.isShown side)).map Field.clientView := by
    rw [clientViewOf_eq, List.filter_map, List.filter_filter]
    congr 1
    refine List.filter_congr fun field _ => ?_
    cases hi : field.flags.internal <;> simp [Field.isShown, hi]
  rw [linesOf, linesOf, hshown, List.mapM_map]
  congr 1
  funext field
  exact fieldLine_clientView side field

variable {schema target : Schema} {declared : Declared}

theorem schemaBlock_clientView (name : String) (description : Option String) (schema : Schema)
    (side : Side) : schemaBlock name description schema.clientView side
      = schemaBlock name description schema side := by
  rw [schemaBlock, schemaBlock, Schema.clientView_fields, linesOf_clientView]

theorem addShape_clientView (declared : Declared) (name : String) (description : Option String)
    (target : Schema) : declared.addShape name description target.clientView
      = declared.addShape name description target := by
  simp only [Declared.addShape, schemaBlock_clientView, Schema.clientView_description]

/-! ## Shapes and entities -/

theorem declareShapesOf_clientView {fields : List Field}
    (ih : ∀ field ∈ fields, ∀ target, field.target? = some target → ∀ declared,
      declareShapes target.clientView declared = declareShapes target declared)
    (declared : Declared) :
    declareShapesOf (clientViewOf fields) declared = declareShapesOf fields declared := by
  induction fields generalizing declared with
  | nil => rfl
  | cons field rest ihrest =>
    have hrest := ihrest fun f hf => ih f (List.mem_cons_of_mem _ hf)
    have htype := field.clientView_typeName
    have htarget := ih field List.mem_cons_self
    obtain ⟨name, type, flags, description, owner⟩ := field
    cases hi : flags.internal with
    | true => cases type <;> simp [clientViewOf, declareShapesOf, hi, hrest]
    | false =>
      cases type with
      | scalar kind | reference target =>
        simp [clientViewOf, FieldType.clientView, declareShapesOf, hi, hrest]
      | embedded target =>
        simp only [Field.clientView, FieldType.clientView] at htype
        simp only [clientViewOf, FieldType.clientView, declareShapesOf, hi, Bool.false_eq_true,
          if_false, htype, htarget target rfl, addShape_clientView, hrest]

theorem declareShapes_clientView (schema : Schema) (declared : Declared) :
    declareShapes schema.clientView declared = declareShapes schema declared := by
  induction schema using Schema.induct generalizing declared with
  | step schema ih =>
    rw [declareShapes_eq, declareShapes_eq, Schema.clientView_fields]
    exact declareShapesOf_clientView ih declared

theorem resultsBlock_clientView (schema : Schema) :
    resultsBlock schema.clientView = resultsBlock schema := by
  simp [resultsBlock, Schema.resultsName]

theorem declareEntity_clientView (declared : Declared) (schema : Schema) :
    declareEntity declared schema.clientView = declareEntity declared schema := by
  simp only [declareEntity, declareShapes_clientView, schemaBlock_clientView,
    resultsBlock_clientView, Schema.clientView_name, Schema.clientView_description,
    Schema.inputName]

/-- Entities have the blocks of their client views, and are refused with them. -/
theorem entityBlocks_clientView (entities : List Schema) :
    entityBlocks (entities.map Schema.clientView) = entityBlocks entities := by
  simp only [entityBlocks, List.foldlM_map, declareEntity_clientView]

theorem rootLine_clientView (schema : Schema) (operation : Operation) :
    rootLine schema.clientView operation = rootLine schema operation := by
  cases operation <;> simp [rootLine, Operation.nameOn, Operation.argumentOn, Operation.resultOn,
    Schema.inputName, Schema.resultsName]

theorem rootLines_clientView (entities : List Schema) (operations : List Operation) :
    rootLines (entities.map Schema.clientView) operations = rootLines entities operations := by
  simp only [rootLines, List.flatMap_map, funext (rootLine_clientView _)]

end Sdl

/-! ## Selections -/

theorem Schema.selectionOf_clientView {excluded : List String} {fields : List Field}
    (ih : ∀ field ∈ fields, ∀ target, field.target? = some target → ∀ above,
      target.clientView.selectionAt excluded above = target.selectionAt excluded above)
    (above : Option String) :
    selectionOf excluded (clientViewOf fields) above = selectionOf excluded fields above := by
  induction fields with
  | nil => rfl
  | cons field rest ihrest =>
    have hrest := ihrest fun f hf => ih f (List.mem_cons_of_mem _ hf)
    have htarget := ih field List.mem_cons_self
    obtain ⟨name, type, flags, description, owner⟩ := field
    cases hi : flags.internal with
    | true => simp [clientViewOf, selectionOf, hi, hrest]
    | false =>
      have htype (path : String) : selectionOfType excluded type.clientView name path
          = selectionOfType excluded type name path := by
        cases type with
        | scalar kind => rfl
        | reference target | embedded target =>
          simp only [FieldType.clientView, selectionOfType, htarget target rfl]
      simp [clientViewOf, selectionOf, hi, hrest, htype]

/-- A schema is read as its client view. -/
theorem Schema.selectionAt_clientView (excluded : List String) (schema : Schema)
    (above : Option String) :
    schema.clientView.selectionAt excluded above = schema.selectionAt excluded above := by
  induction schema using Schema.induct generalizing above with
  | step schema ih =>
    rw [selectionAt_eq, selectionAt_eq, clientView_fields]
    exact selectionOf_clientView ih above

/-! ## Schemas that are alike -/

theorem map_clientView_of_alike {schemas others : List Schema}
    (h : List.Forall₂ Schema.Alike schemas others) :
    schemas.map Schema.clientView = others.map Schema.clientView := by
  induction h with
  | nil => rfl
  | @cons schema other _ _ halike _ ih =>
    rw [List.map_cons, List.map_cons, ih, (schema.alike_iff_clientView other).1 halike]

/-- The client views of a catalog's entities are the entities among its client views. -/
theorem Catalog.map_clientView_entities (catalog : Catalog) :
    catalog.entities.map Schema.clientView
      = (catalog.schemas.map Schema.clientView).filter (·.isEntity) := by
  rw [List.filter_map]
  congr 1
  exact List.filter_congr fun schema _ => schema.clientView_isEntity.symm

/-- **Internal fields stay inside.** Catalogs whose schemas are alike one by one have the same document,
or none for the same reason, in every layout, and schemas that are alike have the same selection
whatever is excluded. -/
theorem alike_same_text :
    (∀ catalog other : Catalog, List.Forall₂ Schema.Alike catalog.schemas other.schemas →
      ∀ layout, Sdl.text catalog layout = Sdl.text other layout) ∧
    ∀ schema other : Schema, schema.Alike other → ∀ excluded,
      Selection.listText (schema.selection excluded) = Selection.listText (other.selection excluded) := by
  constructor
  · intro catalog other h layout
    have hviews : catalog.entities.map Schema.clientView = other.entities.map Schema.clientView := by
      rw [Catalog.map_clientView_entities, Catalog.map_clientView_entities, map_clientView_of_alike h]
    have hblocks : Sdl.entityBlocks catalog.entities = Sdl.entityBlocks other.entities := by
      rw [← Sdl.entityBlocks_clientView, hviews, Sdl.entityBlocks_clientView]
    have hlines (operations : List Operation) :
        Sdl.rootLines catalog.entities operations = Sdl.rootLines other.entities operations := by
      rw [← Sdl.rootLines_clientView, hviews, Sdl.rootLines_clientView]
    rw [Sdl.text, Sdl.text, Sdl.document, Sdl.document, hblocks]
    simp only [Sdl.queryBlock, Sdl.mutationBlock, hlines]
  · intro schema other h excluded
    rw [Schema.selection, Schema.selection, ← Schema.selectionAt_clientView,
      (schema.alike_iff_clientView other).1 h, Schema.selectionAt_clientView]

namespace Schema.Sample

/-- What the server keeps of each change; shown to clients, it would be refused. -/
def history : Schema where
  serial := 4
  name := "History"
  pluralName := "Histories"
  description := none
  isEntity := false
  fields := [{ Field.scalar "entries" .mixed with owner := some "History" }]

/-- The workflow of the sample, with other internal fields. -/
def trackedWorkflow : Schema where
  serial := 5
  name := "Workflow"
  pluralName := "Workflows"
  description := none
  isEntity := true
  fields := [{ Field.identifier "_id" with owner := some "Workflow" },
    { Field.ofSchema "category" category with owner := some "Workflow" },
    { Field.ofSchema "history" history with owner := some "Workflow", flags := { internal := true } },
    { Field.ofSchema "steps" step with owner := some "Workflow", flags := { array := true } }]

def trackedCatalog : Catalog := ⟨[category, trackedWorkflow], by decide⟩

end Schema.Sample

open Schema.Sample in
/-- Nothing that is generated tells a workflow from one with a history. -/
theorem alike_same_text_tracked : workflow ≠ trackedWorkflow ∧
    Sdl.text catalog {} = Sdl.text trackedCatalog {} ∧
    Selection.listText (workflow.selection ["steps.detail"])
      = Selection.listText (trackedWorkflow.selection ["steps.detail"]) := by
  have halike : workflow.Alike trackedWorkflow := by decide
  have hcatalogs : List.Forall₂ Schema.Alike catalog.schemas trackedCatalog.schemas :=
    .cons (by decide) (.cons halike .nil)
  exact ⟨by decide, alike_same_text.1 _ _ hcatalogs {}, alike_same_text.2 _ _ halike _⟩

end EntityModel
