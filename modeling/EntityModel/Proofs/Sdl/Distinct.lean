import EntityModel.Proofs.Name
import EntityModel.Proofs.Sdl.Plan

/-!
# Every type is declared once

The names that a document declares besides the query input and the root types differ from each
other and from these three. A part could only be called like one of the three if a schema were:
the capitalised name of a field does not start with a lower-case letter, and the one word that
`QueryModifier` starts with, `Query`, is reserved.

Results:
* `Part.Of.shape_of_name`: which parts have a name that no schema can take.
* `Part.Of.name_ne_of_barred`: words that no part is called by.
* `Part.Of.name_not_fixed`: no part is called like a type that every document declares.
* `document_names_distinct`: the names of a document are those of its parts, each declared once.
-/
namespace EntityModel

namespace Sdl

/-! ## Names that every document declares -/

/-- The query input, and the root types by their usual names. -/
def fixedNames : List String := ["QueryModifier", "Queries", "Mutations"]

/-- No part can be called by the word. It is no schema's name and not made like the names of inputs
and pages, and what comes before a letter that is not lower-case is no schema's name either, so
nothing can be a shape's name. -/
def Barred (word : String) : Prop :=
  Name.schemaNameFault? word ≠ none ∧ ¬ "Input".toList <:+ word.toList ∧
    ¬ "QueryResults".toList <:+ word.toList ∧
    ∀ k < word.toList.length, word.toList[k]?.all (·.isLower) = true ∨
      Name.schemaNameFault? (String.ofList (word.toList.take k)) ≠ none

instance (word : String) : Decidable (Barred word) :=
  inferInstanceAs (Decidable (_ ∧ _ ∧ _ ∧ _))

theorem fixedNames_barred : ∀ word ∈ fixedNames, Barred word := by decide

/-- A part whose name is no schema's, and not made like the names of inputs and pages, is the type of
a shape. -/
theorem Part.Of.shape_of_name {entities : List Schema}
    (frozen : ∀ entity ∈ entities, entity.Frozen) {part : Part} (h : part.Of entities)
    (hfault : Name.schemaNameFault? part.name ≠ none)
    (hinput : ¬ "Input".toList <:+ part.name.toList)
    (hresults : ¬ "QueryResults".toList <:+ part.name.toList) :
    ∃ entity ∈ entities, ∃ chain inner field target,
      entity.EmbedsAt chain inner field target ∧ inner.shapeName field = part.name := by
  cases h with
  | page he => exact absurd (Text.isSuffix_of_append rfl) hresults
  | @own entity side he =>
    cases side with
    | input => exact absurd (Text.isSuffix_of_append rfl) hinput
    | output =>
      rw [name, Side.ending, String.append_empty] at hfault
      exact absurd (frozen entity he).nameFault hfault
  | @shape entity inner target chain field side he hat =>
    cases side with
    | input => exact absurd (Text.isSuffix_of_append rfl) hinput
    | output => exact ⟨entity, he, chain, inner, field, target, hat, String.append_empty.symm⟩

theorem Part.Of.name_ne_of_barred {entities : List Schema}
    (frozen : ∀ entity ∈ entities, entity.Frozen) {part : Part} (h : part.Of entities)
    {word : String} (hw : Barred word) : part.name ≠ word := by
  rintro rfl
  obtain ⟨hfault, hinput, hresults, hcut⟩ := hw
  obtain ⟨entity, he, chain, inner, field, target, hat, hname⟩ :=
    h.shape_of_name frozen hfault hinput hresults
  have hinner := hat.chain.frozen (frozen entity he)
  -- the word is cut before the letter that the field's name starts with
  obtain ⟨c, rest, hcap, hlower⟩ := Name.capitalize_head (hinner.fieldFault hat.mem)
  obtain ⟨k, hk, hfront⟩ := Text.cut_of_append hcap hname
  rcases hcut k (List.getElem?_eq_some_iff.1 hk).1 with h | h
  · simp [hk, hlower] at h
  · rw [← hfront] at h
    exact h hinner.nameFault

theorem Part.Of.name_not_fixed {entities : List Schema}
    (frozen : ∀ entity ∈ entities, entity.Frozen) {part : Part} (h : part.Of entities) :
    part.name ∉ fixedNames :=
  fun hm => h.name_ne_of_barred frozen (fixedNames_barred _ hm) rfl

/-! ## Documents -/

/-- The blocks of a plan are types and inputs. -/
theorem Plan.names_eq {entities : List Schema} {parts : List Part} {blocks : List Block}
    (h : Plan entities parts blocks) : Sdl.names blocks = parts.map Part.name := by
  rw [← h.names]
  unfold Sdl.names
  rw [List.filter_eq_self.2]
  intro block hb
  obtain ⟨before, after, hsplit⟩ := List.append_of_mem hb
  obtain ⟨_, part, _, _, _, hs⟩ := h.split hsplit
  have hside : ∀ side, sideKeyword side ≠ .schema := by intro side; cases side <;> decide
  cases part with
  | own entity side => simp [Block.IsFor.keyword hs, hside]
  | page entity => rw [Part.IsShownBy] at hs; rw [hs]; rfl
  | shape name target side => simp [Block.IsFor.keyword hs, hside]

/-- A document declares the query input, what its entities need, and the root types. -/
theorem names_document (blocks : List Block) (layout : Layout) (entities : List Schema) :
    names (queryModifierBlock :: (blocks ++ [queryBlock layout entities,
        mutationBlock layout entities, rootsBlock layout]))
      = "QueryModifier" :: (names blocks ++ [layout.queryType, layout.mutationType]) := by
  rw [← List.singleton_append, names_append, names_append]
  rfl

/-- **Distinctness.** Besides the query input and the root types, a document declares the parts of
its entities, each under a name of its own, and none under the name of one of the three. -/
theorem document_names_distinct {catalog : Catalog} {layout : Layout} {doc : List Block}
    (frozen : ∀ schema ∈ catalog.schemas, schema.Frozen) (h : document catalog layout = .ok doc) :
    ∃ blocks, doc = queryModifierBlock :: (blocks ++ [queryBlock layout catalog.entities,
        mutationBlock layout catalog.entities, rootsBlock layout]) ∧
      names blocks = blocks.map (·.name) ∧
      (∀ name, name ∈ names blocks ↔ ∃ part : Part, part.Of catalog.entities ∧ part.name = name) ∧
      (names blocks).Nodup ∧
      (∀ name ∈ ["QueryModifier", "Queries", "Mutations"], name ∉ names blocks) ∧
      (layout.queryType = "Queries" → layout.mutationType = "Mutations" → (names doc).Nodup) := by
  obtain ⟨parts, blocks, hplan, hparts, rfl⟩ := document_plan frozen h
  have hnames := hplan.names_eq
  have hmem : ∀ name, name ∈ names blocks ↔ ∃ part : Part, part.Of catalog.entities ∧ part.name = name := by
    intro name
    simp [hnames, List.mem_map, hparts]
  have hnodup : (names blocks).Nodup := hnames ▸ hplan.names_nodup (partsApart frozen)
  have hfixed : ∀ name ∈ fixedNames, name ∉ names blocks := by
    intro name hm hn
    obtain ⟨part, hof, rfl⟩ := (hmem name).1 hn
    exact hof.name_not_fixed (frozen_entities frozen) hm
  refine ⟨blocks, rfl, by rw [hnames, hplan.names], hmem, hnodup, hfixed, ?_⟩
  intro hquery hmutation
  have hdoc : names (queryModifierBlock :: (blocks ++ [queryBlock layout catalog.entities,
      mutationBlock layout catalog.entities, rootsBlock layout]))
        = "QueryModifier" :: (names blocks ++ ["Queries", "Mutations"]) := by
    rw [← List.singleton_append, names_append, names_append, ← hquery, ← hmutation]
    rfl
  rw [hdoc, List.nodup_cons, List.nodup_append]
  refine ⟨?_, hnodup, by decide, ?_⟩
  · intro hm
    rcases List.mem_append.1 hm with hm | hm
    · exact hfixed _ (by decide) hm
    · revert hm
      decide
  · intro name hn root hr he
    exact hfixed root (List.mem_cons_of_mem _ hr) (he ▸ hn)

/-- The document of the sample schemas declares no name twice. -/
theorem document_sample_distinct :
    ∃ doc, document Schema.Sample.catalog {} = .ok doc ∧ (names doc).Nodup := by
  obtain ⟨doc, hdoc⟩ := document_sample
  obtain ⟨blocks, -, -, -, -, -, h⟩ := document_names_distinct Schema.Sample.schemas_frozen hdoc
  exact ⟨doc, hdoc, h rfl rfl⟩

end Sdl

end EntityModel
