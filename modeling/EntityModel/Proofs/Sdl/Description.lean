import EntityModel.Proofs.Sdl.BlockString
import EntityModel.Proofs.Sdl.Plan

/-!
# Descriptions in the text of a catalog

With descriptions on, a block is written under its description, which stands between triples of quotes
as it was given. The type of an entity has the description of the entity, the type of a shape that of a
field that embeds it or else its own, and no other block has one. Quotes are not escaped, so of the
descriptions that schemas may have, only those are read back that can stand in a block string as they are.

Results:
* `document_told`: which descriptions the blocks of a document have.
* `render_split`: the text around a block.
* `text_descriptions_read_iff`: which descriptions are read back from the text of a catalog.
-/
namespace EntityModel.Sdl

/-! ## Where descriptions come from -/

/-- The description that the part is written under. That of a shape is from a field that embeds it, or
from the shape itself when the field has none. -/
def Part.DescribedAs (entities : List Schema) (description : Option String) : Part → Prop
  | own entity .output => description = entity.description
  | shape name target .output => ∃ entity ∈ entities, ∃ chain inner field,
      entity.EmbedsAt chain inner field target ∧ inner.shapeName field = name ∧
        description = (field.description <|> target.description)
  | own _ .input | shape _ _ .input | page _ => description = none

/-- The block shows a part under its description. -/
structure Block.Tells (entities : List Schema) (block : Block) (part : Part) : Prop where
  of : part.Of entities
  shown : part.IsShownBy block
  described : part.DescribedAs entities block.description

/-- Every block shows a part under its description. -/
def Telling (entities : List Schema) (blocks : List Block) : Prop :=
  ∀ block ∈ blocks, ∃ part, block.Tells entities part

theorem schemaBlock_description {name : String} {description : Option String} {schema : Schema}
    {side : Side} {block : Block} (h : schemaBlock name description schema side = .ok block) :
    block.description = description := by
  obtain ⟨_, _, _, rfl⟩ := schemaBlock_written h
  rfl

variable {entities : List Schema}

theorem addShape_tells {entity inner target : Schema} {chain : List Field} {field : Field}
    {declared next : Declared} (he : entity ∈ entities)
    (hat : entity.EmbedsAt chain inner field target)
    (hadd : declared.addShape (inner.shapeName field) field.description target = .ok next)
    (hd : Telling entities declared.blocks) : Telling entities next.blocks := by
  obtain ⟨output, input, ho, hi, rfl⟩ := addShape_written hadd
  intro block hb
  simp only [List.mem_append, List.mem_cons, List.not_mem_nil, or_false] at hb
  rcases hb with hb | rfl | rfl
  · exact hd block hb
  · exact ⟨_, .shape .output he hat, ⟨_, ho⟩, entity, he, chain, inner, field, hat, rfl,
      schemaBlock_description ho⟩
  · exact ⟨_, .shape .input he hat, ⟨_, hi⟩, schemaBlock_description hi⟩

theorem declareEntity_tells (ha : PartsApart entities) {entity : Schema} (he : entity ∈ entities)
    (hs : entity.Frozen) {declared next : Declared} (h : declareEntity declared entity = .ok next)
    (hd : Telling entities declared.blocks) : Telling entities next.blocks := by
  obtain ⟨inner, output, input, hshapes, ho, hi, rfl⟩ := declareEntity_written h
  have hinner : Telling entities inner.blocks := by
    refine declareShapes_induct (I := (Telling entities ·.blocks)) hs (ha.shapesApart he) ?_ hshapes hd
    intro chain schema field target declared next hat _ _ hadd hd
    exact addShape_tells he hat hadd hd
  intro block hb
  simp only [List.mem_append, List.mem_cons, List.not_mem_nil, or_false] at hb
  rcases hb with hb | rfl | rfl | rfl
  · exact hinner block hb
  · exact ⟨_, .own .output he, ⟨_, ho⟩, schemaBlock_description ho⟩
  · exact ⟨_, .own .input he, ⟨_, hi⟩, schemaBlock_description hi⟩
  · exact ⟨_, .page he, rfl, rfl⟩

theorem declareEntities_tell (ha : PartsApart entities) (hs : ∀ entity ∈ entities, entity.Frozen)
    {todo : List Schema} (hsub : ∀ entity ∈ todo, entity ∈ entities) {declared next : Declared}
    (h : todo.foldlM declareEntity declared = .ok next)
    (hd : Telling entities declared.blocks) : Telling entities next.blocks := by
  induction todo generalizing declared with
  | nil => cases h; exact hd
  | cons entity rest ih =>
    have he := hsub entity (List.mem_cons_self ..)
    rw [List.foldlM_cons] at h
    cases hfirst : declareEntity declared entity with
    | error e => rw [hfirst] at h; cases h
    | ok first =>
      rw [hfirst] at h
      exact ih (fun other ho => hsub other (List.mem_cons_of_mem _ ho)) h
        (declareEntity_tells ha he (hs entity he) hfirst hd)

theorem entityBlocks_tell (ha : PartsApart entities) (hs : ∀ entity ∈ entities, entity.Frozen)
    {blocks : List Block} (h : entityBlocks entities = .ok blocks) : Telling entities blocks := by
  unfold entityBlocks at h
  cases hd : entities.foldlM declareEntity {} with
  | error e => rw [hd] at h; cases h
  | ok declared =>
    rw [hd] at h
    cases h
    exact declareEntities_tell ha hs (fun _ he => he) hd (by simp [Telling])

/-- Every part of a document is shown under its description, and no other block has one. -/
theorem document_told {catalog : Catalog} {layout : Layout} {doc : List Block}
    (frozen : ∀ schema ∈ catalog.schemas, schema.Frozen) (h : document catalog layout = .ok doc) :
    (∀ part : Part, part.Of catalog.entities → ∃ block ∈ doc, block.Tells catalog.entities part) ∧
    ∀ block ∈ doc, block.description ≠ none → ∃ part, block.Tells catalog.entities part := by
  have ha := partsApart frozen
  obtain ⟨blocks, hb, rfl⟩ := document_eq_ok h
  have htell := entityBlocks_tell ha (frozen_entities frozen) hb
  refine ⟨fun part hof => ?_, fun block hm hsome => ?_⟩
  · obtain ⟨parts, hplan, hparts⟩ :=
      entityBlocks_plan ha (frozen_entities frozen) (entities_nodup frozen) hb
    obtain ⟨block, hm, hshown⟩ := hplan.shown part ((hparts part).2 hof)
    obtain ⟨other, hother⟩ := htell block hm
    obtain rfl := ha other part hother.of hof (hother.shown.name_eq.symm.trans hshown.name_eq)
    exact ⟨block, by simp [hm], hother⟩
  · simp only [List.mem_cons, List.mem_append, List.not_mem_nil, or_false] at hm
    rcases hm with rfl | hm | rfl | rfl | rfl
    · exact absurd rfl hsome
    · exact htell block hm
    · exact absurd rfl hsome
    · exact absurd rfl hsome
    · exact absurd rfl hsome

/-! ## The text around a block -/

/-- The text of the blocks before another one. -/
def textBefore (layout : Layout) (blocks : List Block) : String :=
  String.join (blocks.map fun block => block.text layout ++ "\n\n")

/-- The text of the blocks after another one, up to the end of the document. -/
def textAfter (layout : Layout) (blocks : List Block) : String :=
  String.join (blocks.map fun block => "\n\n" ++ block.text layout) ++ "\n"

/-- The text behind the description of a block: its own, without the description, and what follows. -/
def textBehind (layout : Layout) (block : Block) (after : List Block) : String :=
  "\n" ++ { block with description := none }.text layout ++ textAfter layout after

theorem render_cons_of_ne_nil (layout : Layout) (first : Block) {blocks : List Block}
    (h : blocks ≠ []) : render layout (first :: blocks)
      = first.text layout ++ "\n\n" ++ render layout blocks := by
  have htexts : blocks.map (Block.text layout) ≠ [] := mt List.map_eq_nil_iff.1 h
  rw [render, render, List.map_cons, String.intercalate_cons_of_ne_nil htexts, String.append_assoc]

theorem render_cons (layout : Layout) (block : Block) (after : List Block) :
    render layout (block :: after) = block.text layout ++ textAfter layout after := by
  induction after generalizing block with
  | nil => simp [render, textAfter]
  | cons next rest ih =>
    rw [render_cons_of_ne_nil layout block (by simp), ih, textAfter, textAfter,
      List.map_cons, String.join_cons]
    simp only [String.append_assoc]

/-- The text of a document is that of a block with the texts of the others around it. -/
theorem render_split (layout : Layout) (before : List Block) (block : Block) (after : List Block) :
    render layout (before ++ block :: after)
      = textBefore layout before ++ block.text layout ++ textAfter layout after := by
  induction before with
  | nil => simp [textBefore, render_cons]
  | cons first rest ih =>
    rw [List.cons_append, render_cons_of_ne_nil layout first (by simp), ih, textBefore, textBefore,
      List.map_cons, String.join_cons]
    simp only [String.append_assoc]

theorem Block.text_described {layout : Layout} (shown : layout.descriptions = true) {block : Block}
    {description : String} (h : block.description = some description) : block.text layout
      = "\"\"\"" ++ description ++ "\"\"\"\n" ++ { block with description := none }.text layout := by
  simp [Block.text, Block.descriptionText, Block.headText, h, shown, String.append_assoc]

theorem toList_render_described {layout : Layout} (shown : layout.descriptions = true)
    {before after : List Block} {block : Block} {description : String}
    (h : block.description = some description) :
    (render layout (before ++ block :: after)).toList = (textBefore layout before).toList ++
      (quotes ++ (description.toList ++ (quotes ++ (textBehind layout block after).toList))) := by
  rw [render_split, Block.text_described shown h]
  simp [textBehind, quotes]

/-! ## Texts -/

/-- **Descriptions.** With descriptions on, the text of a catalog has each part under its description,
between triples of quotes and as it was given. A reader that takes up behind the first triple reads the
description back, and what comes after it, just when it is quotable. -/
theorem text_descriptions_read_iff {catalog : Catalog} {layout : Layout} {sdl : String}
    (frozen : ∀ schema ∈ catalog.schemas, schema.Frozen) (shown : layout.descriptions = true)
    (h : text catalog layout = .ok sdl) : ∃ doc, document catalog layout = .ok doc ∧
      (∀ part : Part, part.Of catalog.entities → ∃ block ∈ doc, block.Tells catalog.entities part) ∧
      ∀ before block after description, doc = before ++ block :: after →
        block.description = some description →
        (∃ part, block.Tells catalog.entities part) ∧
        ∃ behind, sdl.toList = (textBefore layout before).toList ++
            (quotes ++ (description.toList ++ (quotes ++ behind))) ∧
          (blockString? (description.toList ++ (quotes ++ behind)) = some (description.toList, behind) ↔
            Quotable description.toList) := by
  obtain ⟨doc, hdoc, rfl⟩ := document_of_text h
  obtain ⟨hparts, htold⟩ := document_told frozen hdoc
  refine ⟨doc, hdoc, hparts, ?_⟩
  rintro before block after description rfl hsome
  refine ⟨htold block (by simp) (by simp [hsome]), _, toList_render_described shown hsome, ?_⟩
  rw [blockString?_eq_some_iff, and_iff_right rfl]

/-- The description of the sample category is read back. -/
theorem text_sample_description_read : ∃ sdl front behind,
    text Schema.Sample.catalog { descriptions := true } = .ok sdl ∧
      sdl.toList = front ++ (quotes ++ ("What workflows are filed under".toList ++ (quotes ++ behind))) ∧
      blockString? ("What workflows are filed under".toList ++ (quotes ++ behind))
        = some ("What workflows are filed under".toList, behind) := by
  obtain ⟨doc, hdoc, block, hm, hsome⟩ :
      ∃ doc, document Schema.Sample.catalog { descriptions := true } = .ok doc ∧
        ∃ block ∈ doc, block.description = some "What workflows are filed under" :=
    exists_document (by decide)
  have htext := text_of_document hdoc
  obtain ⟨other, hother, -, hread⟩ :=
    text_descriptions_read_iff Schema.Sample.schemas_frozen rfl htext
  obtain rfl : doc = other := Except.ok.inj (hdoc.symm.trans hother)
  obtain ⟨before, after, hsplit⟩ := List.append_of_mem hm
  obtain ⟨-, behind, hsdl, hiff⟩ := hread before block after _ hsplit hsome
  exact ⟨_, _, behind, htext, hsdl, hiff.2 (by decide)⟩

/-! ## A description with quotes -/

namespace Sample

/-- An entity with quotes in its description. -/
def note : Schema where
  serial := 0
  name := "Note"
  pluralName := "Notes"
  description := some "Uses \"\"\" quotes"
  isEntity := true
  fields := [{ Field.scalar "line" .string with owner := some "Note" }]

theorem note_frozen : note.Frozen := by
  refine (Schema.frozen_iff note).2 ⟨by decide, ?_, by decide⟩
  simp [note, Field.scalar, Field.ofType, Field.target?, FieldType.target?]

def notes : Catalog := ⟨[note], by decide⟩

/-- A frozen schema makes a catalog, in whose text the description ends at the quotes inside it. -/
theorem text_cuts_description : note.Frozen ∧ Catalog.ofSchemas [note] = .ok notes ∧
    ∃ sdl before block after behind, text notes { descriptions := true } = .ok sdl ∧
      document notes { descriptions := true } = .ok (before ++ block :: after) ∧
      block.description = some "Uses \"\"\" quotes" ∧
      sdl.toList = (textBefore { descriptions := true } before).toList ++
        (quotes ++ ("Uses \"\"\" quotes".toList ++ (quotes ++ behind))) ∧
      blockString? ("Uses \"\"\" quotes".toList ++ (quotes ++ behind))
        = some ("Uses ".toList, " quotes".toList ++ (quotes ++ behind)) := by
  obtain ⟨doc, hdoc, block, hm, hsome⟩ :
      ∃ doc, document notes { descriptions := true } = .ok doc ∧
        ∃ block ∈ doc, block.description = some "Uses \"\"\" quotes" :=
    exists_document (by decide)
  obtain ⟨before, after, rfl⟩ := List.append_of_mem hm
  refine ⟨note_frozen, rfl, _, before, block, after, _, text_of_document hdoc, hdoc, hsome,
    toList_render_described rfl hsome, ?_⟩
  exact blockString?_eq_some_iff.2 ⟨rfl, by decide⟩

end Sample

end EntityModel.Sdl
