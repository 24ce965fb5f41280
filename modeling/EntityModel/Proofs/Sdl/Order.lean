import EntityModel.Proofs.Sdl.Refusal
import Mathlib.Data.List.Perm.Basic

/-!
# The order of entities

The document of a catalog goes through the entities in the order of registration, and declares a shape
where it is first met. Which blocks it declares depends on the entities alone: they show the parts
that the entities need, and but for its description a block is settled by the part that it shows.

Results:
* `Part.IsShownBy.text_eq`: without descriptions, all blocks for one part have one text.
* `Plan.texts_perm`: plans with the same parts have the same texts, up to their order.
* `text_same_entities`: catalogs with the same entities have the same blocks, up to their order and
  that of the lines in the root types.
-/
namespace EntityModel.Sdl

/-! ## Blocks for one part -/

theorem Block.text_eq {layout : Layout} (plain : layout.descriptions = false) {a b : Block}
    (hkeyword : a.keyword = b.keyword) (hname : a.name = b.name) (hlines : a.lines = b.lines) :
    a.text layout = b.text layout := by
  have hnone (block : Block) : block.descriptionText layout = "" := by
    unfold descriptionText
    cases block.description <;> simp [plain]
  simp only [text, headText, hnone, hkeyword, hname, hlines]

theorem Block.IsFor.text_eq {layout : Layout} (plain : layout.descriptions = false) {a b : Block}
    {name : String} {schema : Schema} {side : Side} (ha : a.IsFor name schema side)
    (hb : b.IsFor name schema side) : a.text layout = b.text layout := by
  have hlines : a.lines = b.lines := Except.ok.inj (ha.lines.symm.trans hb.lines)
  exact Block.text_eq plain (ha.keyword.trans hb.keyword.symm) (ha.name_eq.trans hb.name_eq.symm) hlines

/-- Only its description may set one block for a part apart from another. -/
theorem Part.IsShownBy.text_eq {layout : Layout} (plain : layout.descriptions = false) {part : Part}
    {a b : Block} (ha : part.IsShownBy a) (hb : part.IsShownBy b) : a.text layout = b.text layout := by
  cases part with
  | own entity side => exact Block.IsFor.text_eq plain ha hb
  | page entity => rw [IsShownBy] at ha hb; rw [ha, hb]
  | shape name target side => exact Block.IsFor.text_eq plain ha hb

/-! ## Parts without order -/

theorem Part.Of.mono {entities others : List Schema} (hsub : entities ⊆ others) {part : Part}
    (h : part.Of entities) : part.Of others := by
  cases h with
  | own side he => exact .own side (hsub he)
  | page he => exact .page (hsub he)
  | shape side he hat => exact .shape side (hsub he) hat

variable {entities others : List Schema} {parts parts' : List Part} {blocks blocks' : List Block}

/-- The text of a block that shows the part. -/
def Part.HasText (layout : Layout) (part : Part) (text : String) : Prop :=
  ∃ block, part.IsShownBy block ∧ block.text layout = text

theorem Part.hasText_rightUnique {layout : Layout} (plain : layout.descriptions = false) :
    Relator.RightUnique (Part.HasText layout) := by
  rintro part _ _ ⟨a, ha, rfl⟩ ⟨b, hb, rfl⟩
  exact ha.text_eq plain hb

/-- The blocks along a plan have the texts of its parts. -/
theorem Plan.hasTexts (layout : Layout) (h : Plan entities parts blocks) :
    List.Forall₂ (Part.HasText layout) parts (blocks.map (Block.text layout)) := by
  induction h with
  | nil => exact .nil
  | add _ _ _ _ hs ih =>
    rw [List.map_append]
    exact List.rel_append ih (.cons ⟨_, hs, rfl⟩ .nil)

/-- Plans with the same parts have the same texts, up to their order. -/
theorem Plan.texts_perm {layout : Layout} (plain : layout.descriptions = false)
    (h : Plan entities parts blocks) (h' : Plan others parts' blocks')
    (hparts : ∀ part, part ∈ parts ↔ part ∈ parts') :
    (blocks.map (Block.text layout)).Perm (blocks'.map (Block.text layout)) := by
  have hperm : parts.Perm parts' := (List.perm_ext_iff_of_nodup h.nodup h'.nodup).2 hparts
  exact List.rel_perm_imp (Part.hasText_rightUnique plain) (h.hasTexts layout) (h'.hasTexts layout) hperm

/-! ## Catalogs with the same entities -/

/-- **Order.** Catalogs with the same entities, in whatever order and beside whatever other schemas,
have a document or have none together. Without descriptions, the two documents have the same blocks
but for the order of the blocks and of the lines in the two root types. -/
theorem text_same_entities {catalog other : Catalog} {layout : Layout}
    (frozen : ∀ schema ∈ catalog.schemas, schema.Frozen)
    (frozen' : ∀ schema ∈ other.schemas, schema.Frozen)
    (same : ∀ schema, schema ∈ catalog.entities ↔ schema ∈ other.entities)
    (plain : layout.descriptions = false) :
    ((∃ sdl, text catalog layout = .ok sdl) ↔ ∃ sdl, text other layout = .ok sdl) ∧
    ∀ sdl sdl', text catalog layout = .ok sdl → text other layout = .ok sdl' →
      ∃ doc doc', document catalog layout = .ok doc ∧ document other layout = .ok doc' ∧
        sdl = render layout doc ∧ sdl' = render layout doc' ∧
        ∃ blocks blocks' query mutation queries mutations,
          doc = queryModifierBlock :: (blocks ++ [query, mutation, rootsBlock layout]) ∧
          doc' = queryModifierBlock :: (blocks' ++ [{ query with lines := queries },
            { mutation with lines := mutations }, rootsBlock layout]) ∧
          (blocks.map (Block.text layout)).Perm (blocks'.map (Block.text layout)) ∧
          query.name = layout.queryType ∧ query.lines.Perm queries ∧
          mutation.name = layout.mutationType ∧ mutation.lines.Perm mutations := by
  constructor
  · rw [text_eq_ok_iff, text_eq_ok_iff, entityBlocks_ok_iff frozen, entityBlocks_ok_iff frozen']
    simp only [same]
  · intro sdl sdl' h h'
    obtain ⟨doc, hdoc, rfl⟩ := document_of_text h
    obtain ⟨doc', hdoc', rfl⟩ := document_of_text h'
    refine ⟨doc, doc', hdoc, hdoc', rfl, rfl, ?_⟩
    obtain ⟨parts, blocks, hplan, hparts, rfl⟩ := document_plan frozen hdoc
    obtain ⟨parts', blocks', hplan', hparts', rfl⟩ := document_plan frozen' hdoc'
    have hneeded (part : Part) : part ∈ parts ↔ part ∈ parts' := by
      rw [hparts, hparts']
      exact ⟨.mono fun schema => (same schema).1, .mono fun schema => (same schema).2⟩
    have hentities : catalog.entities.Perm other.entities :=
      (List.perm_ext_iff_of_nodup (entities_nodup frozen) (entities_nodup frozen')).2 same
    have hlines (operations : List Operation) :
        (rootLines catalog.entities operations).Perm (rootLines other.entities operations) :=
      hentities.flatMap_right _
    exact ⟨blocks, blocks', queryBlock layout catalog.entities,
      mutationBlock layout catalog.entities, rootLines other.entities _,
      rootLines other.entities _, rfl, rfl, hplan.texts_perm plain hplan' hneeded,
      rfl, hlines _, rfl, hlines _⟩

/-- The catalog of the sample in the other order, with a shape registered between the entities. -/
def Sample.shuffled : Catalog :=
  ⟨[Schema.Sample.workflow, Schema.Sample.step, Schema.Sample.category], by decide⟩

/-- The sample has the same blocks in the other order. -/
theorem text_same_entities_shuffled : ∃ blocks blocks' roots roots',
    document Schema.Sample.catalog {} = .ok (queryModifierBlock :: (blocks ++ roots)) ∧
      document Sample.shuffled {} = .ok (queryModifierBlock :: (blocks' ++ roots')) ∧
      (blocks.map (Block.text {})).Perm (blocks'.map (Block.text {})) := by
  have frozen' : ∀ schema ∈ Sample.shuffled.schemas, schema.Frozen := by
    simp [Sample.shuffled, Schema.Sample.workflow_frozen, Schema.Sample.step_frozen,
      Schema.Sample.category_frozen]
  have same : ∀ schema, schema ∈ Schema.Sample.catalog.entities ↔
      schema ∈ Sample.shuffled.entities := by
    have h : Schema.Sample.catalog.entities = [Schema.Sample.category, Schema.Sample.workflow] := rfl
    have h' : Sample.shuffled.entities = [Schema.Sample.workflow, Schema.Sample.category] := rfl
    simp [h, h', or_comm]
  have plain : ({} : Layout).descriptions = false := rfl
  obtain ⟨hiff, hblocks⟩ := text_same_entities Schema.Sample.schemas_frozen frozen' same plain
  obtain ⟨sdl, h⟩ := text_sample
  obtain ⟨sdl', h'⟩ := hiff.1 ⟨sdl, h⟩
  obtain ⟨doc, doc', hdoc, hdoc', -, -, blocks, blocks', query, mutation, queries, mutations, rfl, rfl,
    hperm, -⟩ := hblocks sdl sdl' h h'
  exact ⟨blocks, blocks', _, _, hdoc, hdoc', hperm⟩

end EntityModel.Sdl
