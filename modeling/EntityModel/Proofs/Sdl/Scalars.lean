import EntityModel.Proofs.Sdl.Roots

/-!
# Names of scalars

The scalars of GraphQL are words that no schema may be called by. The type of a shape is called by
the name of the schema around it with the capitalised name of its field behind, and this name is not
compared with the reserved words. A capitalised name does not start with a small letter, which leaves
one scalar that can be cut in two: a schema `I` with a shape under `d` or `D` has a type `ID`.

Results:
* `Name.capitalize_eq_D_iff`: the names of fields that are written `D`.
* `Part.exists_name_eq_scalar_iff`: when a part is called like a scalar.
* `document_scalars_iff`: when a document declares a type with the name of a scalar.
-/
namespace EntityModel

theorem Name.capitalize_eq_D_iff {name : String} (h : fieldNameFault? name = none) :
    Text.capitalize name = "D" ↔ name ∈ ["d", "D"] := by
  obtain ⟨first, rest, hname, hcap⟩ := capitalize_eq h
  refine ⟨fun heq => ?_, ?_⟩
  · have hchars : ['D'] = first.toUpper :: rest := (congrArg String.toList heq).symm.trans hcap
    obtain ⟨hfirst, rfl⟩ := List.cons.inj hchars
    rcases Text.eq_or_eq_toLower hfirst.symm with rfl | rfl
    · have hbig : name = "D" := String.toList_inj.1 hname
      simp [hbig]
    · have hsmall : name = "d" := String.toList_inj.1 hname
      simp [hsmall]
  · intro hm
    have hletters : ∀ letter ∈ ["d", "D"], Text.capitalize letter = "D" := by decide
    exact hletters name hm

namespace Sdl

/-! ## Parts -/

/-- A schema in sight of clients is called `I` and has a shape under `d` or `D`. -/
def EmbedsId (entities : List Schema) : Prop :=
  ∃ entity ∈ entities, ∃ chain inner field target, entity.EmbedsAt chain inner field target ∧
    inner.name = "I" ∧ field.name ∈ ["d", "D"]

/-- The name of a shape is `ID` only if it is cut between the two letters. -/
theorem shapeName_eq_ID_iff {schema : Schema} (hs : schema.Frozen) {field : Field}
    (hf : field ∈ schema.fields) :
    schema.shapeName field = "ID" ↔ schema.name = "I" ∧ field.name ∈ ["d", "D"] := by
  rw [← Name.capitalize_eq_D_iff (hs.fieldFault hf)]
  refine ⟨fun heq => ?_, fun ⟨hname, hcap⟩ => by rw [Schema.shapeName, hname, hcap]; rfl⟩
  obtain ⟨first, rest, hname, -⟩ := Name.schemaName_head hs.nameFault
  obtain ⟨letter, more, hcap, -⟩ := Name.capitalize_head (hs.fieldFault hf)
  have hchars : first :: (rest ++ letter :: more) = ['I', 'D'] := by
    rw [← List.cons_append, ← hname, ← hcap, ← String.toList_append]
    exact congrArg String.toList heq
  obtain ⟨rfl, hrest⟩ := List.cons.inj hchars
  -- neither piece is empty, so each is one letter
  obtain ⟨rfl, hmore⟩ | ⟨-, hmore⟩ := List.append_eq_singleton_iff.1 hrest
  · rw [hmore] at hcap
    exact ⟨String.toList_inj.1 hname, String.toList_inj.1 hcap⟩
  · cases hmore

/-- Of all scalars only `ID` can be the name of a part, and it is the name of a shape. -/
theorem Part.exists_name_eq_scalar_iff {entities : List Schema}
    (frozen : ∀ entity ∈ entities, entity.Frozen) {scalar : String} (hs : scalar ∈ scalarNames) :
    (∃ part : Part, part.Of entities ∧ part.name = scalar) ↔
      scalar = "ID" ∧ EmbedsId entities := by
  constructor
  · intro ⟨part, hof, hname⟩
    have hbarred : ∀ word ∈ scalarNames, word = "ID" ∨ Barred word := by decide
    rcases hbarred scalar hs with rfl | hw
    · obtain ⟨entity, he, chain, inner, field, target, hat, hshape⟩ :=
        hof.shape_of_name frozen (by rw [hname]; decide) (by rw [hname]; decide)
          (by rw [hname]; decide)
      have hinner := hat.chain.frozen (frozen entity he)
      exact ⟨rfl, entity, he, chain, inner, field, target, hat,
        (shapeName_eq_ID_iff hinner hat.mem).1 (hshape.trans hname)⟩
    · exact absurd hname (hof.name_ne_of_barred frozen hw)
  · rintro ⟨rfl, entity, he, chain, inner, field, target, hat, hid⟩
    have hinner := hat.chain.frozen (frozen entity he)
    have hshape := (shapeName_eq_ID_iff hinner hat.mem).2 hid
    exact ⟨_, .shape .output he hat, by rw [name, hshape]; rfl⟩

/-! ## Documents -/

/-- **Scalars.** Besides a root type that is configured so, the only type of a document that has the
name of a scalar is the shape of a schema `I` under `d` or `D`, and its name is `ID`. -/
theorem document_scalars_iff {catalog : Catalog} {layout : Layout} {doc : List Block}
    (frozen : ∀ schema ∈ catalog.schemas, schema.Frozen) (h : document catalog layout = .ok doc) :
    ∀ scalar ∈ scalarNames, scalar ∈ names doc ↔
      scalar ∈ layout.roots ∨ scalar = "ID" ∧ EmbedsId catalog.entities := by
  intro scalar hs
  have hmodifier : ∀ word ∈ scalarNames, word ≠ "QueryModifier" := by decide
  obtain ⟨others, hnames, -, hmem⟩ := document_names_eq frozen h
  rw [hnames, List.mem_append, hmem, or_iff_right (hmodifier scalar hs),
    Part.exists_name_eq_scalar_iff (frozen_entities frozen) hs, or_comm]

/-- The document of the sample schemas has no type `ID`, so in sight of clients no schema `I` has a shape
under `d` or `D`. -/
theorem document_sample_scalars : ∃ doc, document Schema.Sample.catalog {} = .ok doc ∧
    ¬ EmbedsId Schema.Sample.catalog.entities := by
  obtain ⟨doc, hdoc, hnames⟩ : ∃ doc, document Schema.Sample.catalog {} = .ok doc ∧
      "ID" ∉ names doc :=
    exists_document (by decide)
  have hid := document_scalars_iff Schema.Sample.schemas_frozen hdoc "ID" (by decide)
  exact ⟨doc, hdoc, fun hembeds => hnames (hid.2 (.inr ⟨rfl, hembeds⟩))⟩

/-! ## A type called like a scalar -/

namespace Sample

/-- An entity with a one-letter name that embeds a shape under a one-letter name. -/
def item : Schema where
  serial := 1
  name := "I"
  pluralName := "Is"
  description := none
  isEntity := true
  fields := [{ Field.ofSchema "d" Schema.Sample.detail with owner := some "I" }]

theorem item_frozen : item.Frozen := by
  refine (Schema.frozen_iff item).2 ⟨by decide, ?_, by decide⟩
  simp [item, Field.ofSchema, Field.ofType, Field.target?, FieldType.ofSchema, FieldType.target?,
    Schema.Sample.detail_frozen, show Schema.Sample.detail.isEntity = false from rfl]

def items : Catalog := ⟨[Schema.Sample.detail, item], by decide⟩

/-- Two frozen schemas make a catalog, whose document has a type called like the scalar `ID`. -/
theorem document_declares_id : Schema.Sample.detail.Frozen ∧ item.Frozen ∧
    Catalog.ofSchemas [Schema.Sample.detail, item] = .ok items ∧
    ∃ doc, document items {} = .ok doc ∧ "ID" ∈ names doc ∧ "ID" ∈ scalarNames := by
  refine ⟨Schema.Sample.detail_frozen, item_frozen, rfl, ?_⟩
  exact exists_document (by decide)

end Sample

end Sdl

end EntityModel
