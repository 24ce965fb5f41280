import EntityModel.Proofs.Config
import EntityModel.Proofs.Dispatch
import EntityModel.Proofs.Sdl.Closed
import EntityModel.Proofs.Sdl.Distinct

/-!
# Names in a document

What a document declares should have an identifier for its name. The names of fields and of the
root types are checked as identifiers. The name of a schema is held to Pascal case only, which lets
marks such as `!` pass, and goes into the names of types, inputs and root fields; a plural name
goes into the name of a root field unchecked.

Results:
* `Plan.names_ident_iff`, `Plan.lines_ident`: the names in the blocks of the entities.
* `rootLines_ident_iff`: the names of root fields.
* `Plan.document_lines_ident_iff`: the other fields of a document are called by identifiers.
* `document_names_ident_iff`: when a document only declares identifiers.
-/
namespace EntityModel

/-- Behind the name of a schema, what may stand in an identifier makes no difference. -/
theorem Schema.Frozen.identFault_append_iff {schema : Schema} (h : schema.Frozen) {back : String}
    (hback : back.toList.all Name.continuesIdent = true) :
    Name.identFault? (schema.name ++ back) = none ↔ Name.identFault? schema.name = none := by
  obtain ⟨first, rest, hname, -, hunderscore⟩ := Name.schemaName_head h.nameFault
  rw [Name.identFault_append_iff ⟨first, rest, hname, hunderscore⟩, and_iff_left hback]

theorem Schema.Frozen.field_ident {schema : Schema} (h : schema.Frozen) {field : Field}
    (hf : field ∈ schema.fields) : Name.identFault? field.name = none :=
  ((Name.fieldNameFault_eq_none field.name).1 (h.fieldFault hf)).1

theorem Operation.nameOn_ident_iff (operation : Operation) (schema : Schema) :
    Name.identFault? (operation.nameOn schema) = none ↔
      (operation.subject schema).toList.all Name.continuesIdent = true := by
  have hverb : Name.identFault? operation.verb = none := by cases operation <;> decide
  have hhead : ∃ first rest, operation.verb.toList = first :: rest ∧ first ≠ '_' := by
    cases operation <;> exact ⟨_, _, rfl, by decide⟩
  rw [nameOn_eq, Name.identFault_append_iff hhead, and_iff_right hverb]

namespace Sdl

/-- The names that blocks declare: those of types and inputs, and those of fields. -/
def declaredNames (blocks : List Block) : List String :=
  names blocks ++ blocks.flatMap fun block => block.lines.map (·.name)

/-! ## The blocks of the entities -/

theorem ending_continues (side : Side) : side.ending.toList.all Name.continuesIdent = true := by
  cases side <;> decide

/-- The names of an entity's parts are identifiers when its own is. -/
theorem Part.own_ident_iff {entity : Schema} (hs : entity.Frozen) (side : Side) :
    Name.identFault? (own entity side).name = none ↔ Name.identFault? entity.name = none :=
  hs.identFault_append_iff (ending_continues side)

theorem Part.page_ident_iff {entity : Schema} (hs : entity.Frozen) :
    Name.identFault? (page entity).name = none ↔ Name.identFault? entity.name = none :=
  hs.identFault_append_iff (by decide)

/-- The names of a shape's parts are identifiers when that of the schema around it is. -/
theorem Part.shape_ident_iff {inner : Schema} (hs : inner.Frozen) {field : Field}
    (hf : field ∈ inner.fields) (target : Schema) (side : Side) :
    Name.identFault? (shape (inner.shapeName field) target side).name = none ↔
      Name.identFault? inner.name = none := by
  have hback : (Text.capitalize field.name ++ side.ending).toList.all Name.continuesIdent = true := by
    rw [String.toList_append, List.all_append, Name.capitalize_continues (hs.fieldFault hf),
      ending_continues, Bool.and_true]
  rw [name, Schema.shapeName, String.append_assoc, hs.identFault_append_iff hback]

section Plan

variable {entities : List Schema} {parts : List Part} {blocks : List Block}

/-- The names of types and inputs of entities are identifiers when the names of the entities are,
and those of the schemas in them that embed a shape. -/
theorem Plan.names_ident_iff (h : Plan entities parts blocks)
    (hparts : ∀ part, part ∈ parts ↔ part.Of entities)
    (frozen : ∀ entity ∈ entities, entity.Frozen) :
    (∀ name ∈ Sdl.names blocks, Name.identFault? name = none) ↔
      ∀ entity ∈ entities, Name.identFault? entity.name = none ∧
        ∀ chain inner field target, entity.EmbedsAt chain inner field target →
          Name.identFault? inner.name = none := by
  rw [h.names_eq, List.forall_mem_map]
  constructor
  · intro hall entity he
    refine ⟨?_, ?_⟩
    · exact (Part.own_ident_iff (frozen entity he) .output).1 (hall _ ((hparts _).2 (.own .output he)))
    · intro chain inner field target hat
      have hinner := hat.chain.frozen (frozen entity he)
      exact (Part.shape_ident_iff hinner hat.mem target .output).1
        (hall _ ((hparts _).2 (.shape .output he hat)))
  · intro hall part hp
    cases (hparts part).1 hp with
    | own side he => exact (Part.own_ident_iff (frozen _ he) side).2 (hall _ he).1
    | page he => exact (Part.page_ident_iff (frozen _ he)).2 (hall _ he).1
    | shape side he hat =>
      have hinner := hat.chain.frozen (frozen _ he)
      exact (Part.shape_ident_iff hinner hat.mem _ side).2 ((hall _ he).2 _ _ _ _ hat)

/-- The fields of types and inputs of entities are called by identifiers. -/
theorem Plan.lines_ident (h : Plan entities parts blocks)
    (frozen : ∀ entity ∈ entities, entity.Frozen) {block : Block} (hb : block ∈ blocks) {line : Line}
    (hl : line ∈ block.lines) : Name.identFault? line.name = none := by
  obtain ⟨before, after, hsplit⟩ := List.append_of_mem hb
  obtain ⟨-, part, -, hof, -, hshown⟩ := h.split hsplit
  cases hshows : part.shows? with
  | none =>
    cases hof with
    | own => cases hshows
    | shape => cases hshows
    | @page entity he =>
      rw [Part.IsShownBy] at hshown
      subst hshown
      simp only [resultsBlock, List.mem_cons, List.not_mem_nil, or_false] at hl
      rcases hl with rfl | rfl | rfl <;> (dsimp only; decide)
  | some shown =>
    obtain ⟨schema, side⟩ := shown
    obtain ⟨-, hlines⟩ := hshown.shows hshows
    obtain ⟨field, hf, -, hline⟩ := field_of_mem_linesOf hlines hl
    obtain ⟨entity, he, chain, hc⟩ := hof.embeds hshows
    rw [(fieldLine_eq_ok.1 hline).1]
    exact (hc.frozen (frozen entity he)).field_ident hf

end Plan

/-! ## Root types -/

theorem rootLines_ident_iff (entities : List Schema) (operations : List Operation) :
    (∀ line ∈ rootLines entities operations, Name.identFault? line.name = none) ↔
      ∀ entity ∈ entities, ∀ operation ∈ operations,
        (operation.subject entity).toList.all Name.continuesIdent = true := by
  simp only [rootLines, List.mem_flatMap, List.mem_map]
  constructor
  · intro h entity he operation ho
    exact (operation.nameOn_ident_iff entity).1 (h _ ⟨entity, he, operation, ho, rfl⟩)
  · rintro h line ⟨entity, he, operation, ho, rfl⟩
    exact (operation.nameOn_ident_iff entity).2 (h entity he operation ho)

/-! ## Documents -/

theorem forall_declaredNames_iff {p : String → Prop} {blocks : List Block} :
    (∀ name ∈ declaredNames blocks, p name) ↔
      (∀ name ∈ names blocks, p name) ∧ ∀ block ∈ blocks, ∀ line ∈ block.lines, p line.name := by
  simp only [declaredNames, List.forall_mem_append, List.forall_mem_flatMap, List.forall_mem_map]

/-- Of all fields in a document, only root fields may not be called by identifiers. -/
theorem Plan.document_lines_ident_iff {entities : List Schema} {parts : List Part}
    {blocks : List Block} (h : Plan entities parts blocks)
    (frozen : ∀ entity ∈ entities, entity.Frozen) (layout : Layout) :
    (∀ block ∈ queryModifierBlock :: (blocks ++ [queryBlock layout entities,
        mutationBlock layout entities, rootsBlock layout]),
      ∀ line ∈ block.lines, Name.identFault? line.name = none) ↔
      ∀ entity ∈ entities, ∀ operation : Operation,
        (operation.subject entity).toList.all Name.continuesIdent = true := by
  constructor
  · intro hall entity he operation
    have hquery := (rootLines_ident_iff _ _).1 (hall (queryBlock layout entities) (by simp))
    have hmutation := (rootLines_ident_iff _ _).1 (hall (mutationBlock layout entities) (by simp))
    cases operation with
    | getOne | getMany => exact hquery entity he _ (by decide)
    | insert | update | delete => exact hmutation entity he _ (by decide)
  · intro hsubject block hb line hl
    have hroot (operations : List Operation) :=
      (rootLines_ident_iff entities operations).2 fun entity he operation _ =>
        hsubject entity he operation
    simp only [List.mem_cons, List.mem_append, List.not_mem_nil, or_false] at hb
    rcases hb with rfl | hb | rfl | rfl | rfl
    · have hmodifier : ∀ line ∈ queryModifierBlock.lines, Name.identFault? line.name = none := by
        decide
      exact hmodifier line hl
    · exact h.lines_ident frozen hb hl
    · exact hroot _ line hl
    · exact hroot _ line hl
    · simp only [rootsBlock, List.mem_cons, List.not_mem_nil, or_false] at hl
      rcases hl with rfl | rfl <;> (dsimp only; decide)

/-- **Identifiers.** With a sound configuration, all names that a document declares are identifiers
exactly when the names of entities are, and those of the schemas in them that embed a shape, and
the plural names of entities are made of characters that may stand in an identifier. -/
theorem document_names_ident_iff {catalog : Catalog} {config : Config} {doc : List Block}
    (frozen : ∀ schema ∈ catalog.schemas, schema.Frozen) (checked : config.check = .ok ())
    (h : document catalog config.sdl = .ok doc) :
    (∀ name ∈ declaredNames doc, Name.identFault? name = none) ↔
      ∀ entity ∈ catalog.entities, Name.identFault? entity.name = none ∧
        entity.pluralName.toList.all Name.continuesIdent = true ∧
        ∀ chain inner field target, entity.EmbedsAt chain inner field target →
          Name.identFault? inner.name = none := by
  obtain ⟨hquery, hmutation, -, -⟩ := (Config.check_eq_ok_iff config).1 checked
  obtain ⟨parts, blocks, hplan, hparts, rfl⟩ := document_plan frozen h
  have hentities := frozen_entities frozen
  have hnames := hplan.names_ident_iff hparts hentities
  rw [forall_declaredNames_iff, names_document, hplan.document_lines_ident_iff hentities]
  constructor
  · intro ⟨hall, hsubject⟩ entity he
    obtain ⟨hown, hinner⟩ := hnames.1 (fun name hn => hall name (by simp [hn])) entity he
    exact ⟨hown, hsubject entity he .getMany, hinner⟩
  · intro hall
    refine ⟨fun name hn => ?_, fun entity he operation => ?_⟩
    · simp only [List.mem_cons, List.mem_append, List.not_mem_nil, or_false] at hn
      rcases hn with rfl | hn | rfl | rfl
      · decide
      · exact hnames.2 (fun entity he => ⟨(hall entity he).1, (hall entity he).2.2⟩) name hn
      · exact hquery
      · exact hmutation
    · obtain ⟨hown, hplural, -⟩ := hall entity he
      cases operation with
      | getMany => exact hplural
      | insert | update | getOne | delete => exact Name.continues_of_ident hown

/-- All names in the document of the sample schemas are identifiers, so the schemas inside a workflow
that embed a shape are called by identifiers. -/
theorem document_sample_names_ident : ∃ doc,
    document Schema.Sample.catalog ({} : Config).sdl = .ok doc ∧
      ∀ chain inner field target, Schema.Sample.workflow.EmbedsAt chain inner field target →
        Name.identFault? inner.name = none := by
  obtain ⟨doc, hdoc, hnames⟩ : ∃ doc, document Schema.Sample.catalog {} = .ok doc ∧
      ∀ name ∈ declaredNames doc, Name.identFault? name = none :=
    exists_document (by decide)
  have hm : Schema.Sample.workflow ∈ Schema.Sample.catalog.entities := by decide
  have hsample :=
    (document_names_ident_iff Schema.Sample.schemas_frozen Config.check_default hdoc).1 hnames
  exact ⟨doc, hdoc, (hsample _ hm).2.2⟩

/-! ## Names that are no identifiers -/

namespace Sample

/-- An entity with a plural name of two words. -/
def person : Schema where
  serial := 0
  name := "Person"
  pluralName := "all people"
  description := none
  isEntity := true
  fields := [{ Field.scalar "name" .string with owner := some "Person" }]

/-- An entity whose name is in Pascal case, but no identifier. -/
def wow : Schema where
  serial := 1
  name := "Wow!"
  pluralName := "Wow!s"
  description := none
  isEntity := true
  fields := [{ Field.scalar "name" .string with owner := some "Wow!" }]

theorem person_frozen : person.Frozen := by
  refine (Schema.frozen_iff person).2 ⟨by decide, ?_, by decide⟩
  simp [person, Field.scalar, Field.ofType, Field.target?, FieldType.target?]

theorem wow_frozen : wow.Frozen := by
  refine (Schema.frozen_iff wow).2 ⟨by decide, ?_, by decide⟩
  simp [wow, Field.scalar, Field.ofType, Field.target?, FieldType.target?]

def wows : Catalog := ⟨[person, wow], by decide⟩

/-- Two frozen schemas make a catalog, whose document has a root field with a blank in its name and
a type with an exclamation mark. -/
theorem document_wows_names : person.Frozen ∧ wow.Frozen ∧
    Catalog.ofSchemas [person, wow] = .ok wows ∧ Config.check {} = .ok () ∧
    ∃ doc, document wows ({} : Config).sdl = .ok doc ∧
      "findall people" ∈ declaredNames doc ∧ Name.identFault? "findall people" ≠ none ∧
      "Wow!" ∈ declaredNames doc ∧ Name.identFault? "Wow!" ≠ none := by
  refine ⟨person_frozen, wow_frozen, rfl, Config.check_default, ?_⟩
  exact exists_document (by decide)

end Sample

end Sdl

end EntityModel
