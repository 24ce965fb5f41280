import EntityModel.Proofs.Sdl.Refusal

/-!
# Blocks without fields

GraphQL has no types without fields. The blocks of entities and of shapes are written only with a
line in them: a schema with no field to show on one side keeps the whole document from being
written. The root types are written as they come. They have lines for every entity, so they stand
empty just when there is no entity.

Results:
* `Schema.Presentable.shown`: what can be shown has a field on each side.
* `rootLines_eq_nil_iff`: when a root type has no line.
* `document_filled`: which blocks of a document have no line, and what keeps it from being written.
-/
namespace EntityModel

theorem Schema.Presentable.shown {schema : Schema} (h : schema.Presentable) (side : Side) :
    ∃ field ∈ schema.fields, field.isShown side = true := by
  obtain ⟨field, hf, hv, ha⟩ := h.sent
  refine ⟨field, hf, ?_⟩
  cases side with
  | output => rw [Field.isShown_output, hv]; rfl
  | input => rw [Field.isShown_input, hv, ha]; rfl

namespace Sdl

theorem rootLines_eq_nil_iff (entities : List Schema) {operations : List Operation}
    (h : operations ≠ []) : rootLines entities operations = [] ↔ entities = [] := by
  rw [← List.length_eq_zero_iff, rootLines_length, Nat.mul_eq_zero, List.length_eq_zero_iff,
    List.length_eq_zero_iff, or_iff_left h]

theorem Plan.lines_ne_nil {entities : List Schema} {parts : List Part} {blocks : List Block}
    (h : Plan entities parts blocks) {block : Block} (hb : block ∈ blocks) : block.lines ≠ [] := by
  obtain ⟨before, after, hsplit⟩ := List.append_of_mem hb
  obtain ⟨-, part, -, -, -, hshown⟩ := h.split hsplit
  exact hshown.lines_ne_nil

/-- A catalog with a schema in sight of clients that has nothing to show on one side has no document. -/
theorem exists_refusal_of_bare {catalog : Catalog} {layout : Layout}
    (frozen : ∀ schema ∈ catalog.schemas, schema.Frozen) {entity schema : Schema}
    (he : entity ∈ catalog.entities) {chain : List Field}
    (hc : entity.Embeds Field.Visible chain schema) {side : Side}
    (hbare : ∀ field ∈ schema.fields, field.isShown side = false) :
    ∃ cause, document catalog layout = .error cause := by
  cases hdoc : document catalog layout with
  | error cause => exact ⟨cause, rfl⟩
  | ok doc =>
    obtain ⟨blocks, hb, -⟩ := document_eq_ok hdoc
    have hpresentable := (entityBlocks_ok_iff frozen).1 ⟨blocks, hb⟩ entity he chain schema hc
    obtain ⟨field, hf, hshown⟩ := hpresentable.shown side
    rw [hbare field hf] at hshown
    cases hshown

/-- **Blocks without fields.** In a document only the two root types can be without a line, and they
are just when the catalog has no entity; such a catalog always has a document. A catalog with a schema
in sight of clients that has no field to show on one side has none. -/
theorem document_filled {catalog : Catalog}
    (frozen : ∀ schema ∈ catalog.schemas, schema.Frozen) (layout : Layout) :
    (∀ doc, document catalog layout = .ok doc → ∀ block ∈ doc, block.lines = [] ↔
      catalog.entities = [] ∧
        block ∈ [queryBlock layout catalog.entities, mutationBlock layout catalog.entities]) ∧
    (catalog.entities = [] → ∃ doc, document catalog layout = .ok doc) ∧
    ∀ entity ∈ catalog.entities, ∀ chain schema, entity.Embeds Field.Visible chain schema →
      ∀ side, (∀ field ∈ schema.fields, field.isShown side = false) →
        ∃ cause, document catalog layout = .error cause := by
  refine ⟨?_, ?_, ?_⟩
  · intro doc hdoc block hm
    obtain ⟨parts, blocks, hplan, -, rfl⟩ := document_plan frozen hdoc
    have hquery : (queryBlock layout catalog.entities).lines = [] ↔ catalog.entities = [] :=
      rootLines_eq_nil_iff _ (by decide)
    have hmutation : (mutationBlock layout catalog.entities).lines = [] ↔ catalog.entities = [] :=
      rootLines_eq_nil_iff _ (by decide)
    refine ⟨fun hnil => ?_, fun ⟨hnone, hroot⟩ => ?_⟩
    · simp only [List.mem_cons, List.mem_append, List.not_mem_nil, or_false] at hm
      rcases hm with rfl | hb | rfl | rfl | rfl
      · cases hnil
      · exact absurd hnil (hplan.lines_ne_nil hb)
      · exact ⟨hquery.1 hnil, by simp⟩
      · exact ⟨hmutation.1 hnil, by simp⟩
      · cases hnil
    · simp only [List.mem_cons, List.not_mem_nil, or_false] at hroot
      rcases hroot with rfl | rfl
      · exact hquery.2 hnone
      · exact hmutation.2 hnone
  · intro hnone
    rw [document, hnone]
    exact ⟨_, rfl⟩
  · intro entity he chain schema hc side hbare
    exact exists_refusal_of_bare frozen he hc hbare

/-- Every block in the document of the sample schemas has a line. -/
theorem document_sample_filled : ∃ doc, document Schema.Sample.catalog {} = .ok doc ∧
    ∀ block ∈ doc, block.lines ≠ [] := by
  obtain ⟨doc, hdoc⟩ := document_sample
  have frozen : ∀ schema ∈ Schema.Sample.catalog.schemas, schema.Frozen :=
    Schema.Sample.schemas_frozen
  have hsome : Schema.Sample.catalog.entities ≠ [] := by decide
  obtain ⟨hlines, -, -⟩ := document_filled frozen {}
  exact ⟨doc, hdoc, fun block hm hnil => hsome ((hlines doc hdoc block hm).1 hnil).1⟩

/-! ## Root types without fields -/

namespace Sample

/-- A catalog of one shape, which no entity embeds. -/
def details : Catalog := ⟨[Schema.Sample.detail], by decide⟩

/-- A frozen schema makes a catalog, whose document has two types without fields. -/
theorem document_roots_bare : Schema.Sample.detail.Frozen ∧
    Catalog.ofSchemas [Schema.Sample.detail] = .ok details ∧
    ∃ doc, document details {} = .ok doc ∧
      (doc.filter (·.lines = [])).map (·.name) = ["Queries", "Mutations"] := by
  refine ⟨Schema.Sample.detail_frozen, rfl, ?_⟩
  exact exists_document (by decide)

end Sample

end Sdl

end EntityModel
