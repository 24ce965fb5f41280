import EntityModel.Proofs.Config
import EntityModel.Proofs.Sdl.Closed
import EntityModel.Proofs.Sdl.Distinct

/-!
# Names of the root types

The names of the root types are configured. The check of a configuration compares them with each
other only, and a catalog keeps apart the names that its schemas claim without knowing those of the
root types. So a root type can be called like another type, and like a scalar. It cannot if its
name is one that schemas may not take, or starts with a small letter or an underscore.

Results:
* `unclaimed_iff`: a name is unclaimed when it is not fixed and no part is called by it.
* `document_roots_apart_iff`: the root types have names of their own exactly when these are
  unclaimed.
-/
namespace EntityModel.Sdl

/-- The names of the root types. -/
def Layout.roots (layout : Layout) : List String := [layout.queryType, layout.mutationType]

/-- The names that root types usually have. -/
def usualRoots : List String := ["Mutation", "Mutations", "Queries", "Query", "Subscription"]

/-- The name is that of one block and of no scalar. -/
structure NameApart (doc : List Block) (name : String) : Prop where
  once : (names doc).count name = 1
  notScalar : name ∉ scalarNames

/-- Besides the root types, nothing goes by the name where the entities are declared. -/
structure Unclaimed (entities : List Schema) (name : String) : Prop where
  fixed : name ∉ "QueryModifier" :: scalarNames
  own : ∀ entity ∈ entities, name ∉ [entity.name, entity.inputName, entity.resultsName]
  shape : ∀ entity ∈ entities, ∀ chain inner field target,
    entity.EmbedsAt chain inner field target →
      name ∉ [inner.shapeName field, inner.shapeName field ++ "Input"]

/-! ## Names of parts -/

theorem unclaimed_iff {entities : List Schema} {name : String} : Unclaimed entities name ↔
    name ∉ "QueryModifier" :: scalarNames ∧
      ∀ part : Part, part.Of entities → part.name ≠ name := by
  have hown (entity : Schema) : (Part.own entity .output).name = entity.name := String.append_empty
  have hshape (shape : String) (target : Schema) : (Part.shape shape target .output).name = shape :=
    String.append_empty
  constructor
  · intro h
    refine ⟨h.fixed, ?_⟩
    rintro part hof rfl
    cases hof with
    | own side he =>
      have hn := h.own _ he
      cases side with
      | output => simp [hown] at hn
      | input => simp [Part.name, Schema.inputName, Side.ending] at hn
    | page he =>
      have hn := h.own _ he
      simp [Part.name] at hn
    | shape side he hat =>
      have hn := h.shape _ he _ _ _ _ hat
      cases side with
      | output => simp [hshape] at hn
      | input => simp [Part.name, Side.ending] at hn
  · rintro ⟨hfixed, hpart⟩
    refine ⟨hfixed, fun entity he => ?_, fun entity he chain inner field target hat => ?_⟩
    · have houtput := hown entity ▸ hpart _ (.own .output he)
      have hinput : entity.inputName ≠ name := hpart _ (.own .input he)
      have hpage : entity.resultsName ≠ name := hpart _ (.page he)
      simp [houtput.symm, hinput.symm, hpage.symm]
    · have houtput := hshape _ target ▸ hpart _ (.shape .output he hat)
      have hinput : inner.shapeName field ++ "Input" ≠ name := hpart _ (.shape .input he hat)
      simp [houtput.symm, hinput.symm]

/-- The name of a part starts like that of a schema. -/
theorem Part.Of.name_head {entities : List Schema}
    (frozen : ∀ entity ∈ entities, entity.Frozen) {part : Part} (h : part.Of entities) :
    ∃ first rest, part.name.toList = first :: rest ∧ first.isLower = false ∧ first ≠ '_' := by
  have hstart {schema : Schema} (hs : schema.Frozen) (back : String) : ∃ first rest,
      (schema.name ++ back).toList = first :: rest ∧ first.isLower = false ∧ first ≠ '_' := by
    obtain ⟨first, rest, hname, hhead⟩ := Name.schemaName_head hs.nameFault
    exact ⟨first, rest ++ back.toList, by rw [String.toList_append, hname]; rfl, hhead⟩
  cases h with
  | own side he => exact hstart (frozen _ he) _
  | page he => exact hstart (frozen _ he) _
  | shape side he hat =>
    rw [name, Schema.shapeName, String.append_assoc]
    exact hstart (hat.chain.frozen (frozen _ he)) _

theorem usualRoots_barred : ∀ root ∈ usualRoots, Barred root := by decide

/-- No catalog claims a usual name, or one that starts with a small letter or an underscore. -/
theorem unclaimed_of_plain {entities : List Schema} (frozen : ∀ entity ∈ entities, entity.Frozen)
    {root : String} (h : root ∈ usualRoots ∨
      ∃ first rest, root.toList = first :: rest ∧ (first.isLower = true ∨ first = '_')) :
    Unclaimed entities root := by
  rw [unclaimed_iff]
  rcases h with husual | ⟨first, rest, hroot, hfirst⟩
  · have hfixed : ∀ root ∈ usualRoots, root ∉ "QueryModifier" :: scalarNames := by decide
    exact ⟨hfixed root husual,
      fun part hof => hof.name_ne_of_barred frozen (usualRoots_barred root husual)⟩
  · have hstart : ¬ (first.isLower = false ∧ first ≠ '_') := by
      rcases hfirst with h | rfl <;> simp [*]
    have hhead : ∀ name ∈ "QueryModifier" :: scalarNames,
        name.toList.head?.all (fun c => !c.isLower && c != '_') = true := by
      decide
    refine ⟨fun hm => hstart (by simpa [hroot] using hhead root hm), ?_⟩
    -- parts are called after schemas, and these start with neither
    rintro part hof rfl
    obtain ⟨other, _, hname, hother⟩ := hof.name_head frozen
    obtain ⟨rfl, -⟩ := List.cons.inj (hroot.symm.trans hname)
    exact hstart hother

/-! ## Documents -/

section Pair

variable {front : List String} {a b : String}

theorem count_append_pair (hne : a ≠ b) {name : String} (hn : name ∈ [a, b]) :
    (front ++ [a, b]).count name = 1 ↔ name ∉ front := by
  have hpair : [a, b].count name = 1 := by
    simp only [List.mem_cons, List.not_mem_nil, or_false] at hn
    rcases hn with rfl | rfl <;> simp [hne, hne.symm]
  rw [List.count_append, hpair, ← List.count_eq_zero]
  omega

theorem nodup_append_pair (hne : a ≠ b) (hfront : front.Nodup) :
    (front ++ [a, b]).Nodup ↔ ∀ name ∈ [a, b], name ∉ front := by
  rw [List.nodup_append]
  constructor
  · intro ⟨_, _, hapart⟩ name hn hm
    exact hapart name hm name hn rfl
  · intro h
    refine ⟨hfront, by simp [hne], ?_⟩
    rintro name hm _ hn rfl
    exact h name hn hm

end Pair

/-- Before the root types, a document declares the query input and the parts of its entities, all
under names that differ. -/
theorem document_names_eq {catalog : Catalog} {layout : Layout} {doc : List Block}
    (frozen : ∀ schema ∈ catalog.schemas, schema.Frozen) (h : document catalog layout = .ok doc) :
    ∃ others, names doc = others ++ layout.roots ∧ others.Nodup ∧
      ∀ name, name ∈ others ↔
        name = "QueryModifier" ∨ ∃ part : Part, part.Of catalog.entities ∧ part.name = name := by
  obtain ⟨parts, blocks, hplan, hparts, rfl⟩ := document_plan frozen h
  have hmem (name : String) :
      name ∈ names blocks ↔ ∃ part : Part, part.Of catalog.entities ∧ part.name = name := by
    simp [hplan.names_eq, List.mem_map, hparts]
  refine ⟨"QueryModifier" :: names blocks, names_document .., List.nodup_cons.2 ⟨?_, ?_⟩, ?_⟩
  · rw [hmem]
    rintro ⟨part, hof, hname⟩
    exact hof.name_not_fixed (frozen_entities frozen) (hname ▸ List.mem_cons_self ..)
  · exact hplan.names_eq ▸ hplan.names_nodup (partsApart frozen)
  · intro name
    rw [List.mem_cons, hmem]

/-- **Root types.** With a sound configuration, the root types of a document are called by names of
their own, and not like scalars, exactly when these names are unclaimed by the entities; only then
are all types declared once. Usual names are always apart, and so are names that start with a small
letter or an underscore. -/
theorem document_roots_apart_iff {catalog : Catalog} {config : Config} {doc : List Block}
    (frozen : ∀ schema ∈ catalog.schemas, schema.Frozen) (checked : config.check = .ok ())
    (h : document catalog config.sdl = .ok doc) :
    ((∀ root ∈ config.sdl.roots, NameApart doc root) ↔
      ∀ root ∈ config.sdl.roots, Unclaimed catalog.entities root) ∧
    ((names doc).Nodup ↔ ∀ root ∈ config.sdl.roots, (names doc).count root = 1) ∧
    ∀ root ∈ config.sdl.roots, (root ∈ usualRoots ∨
      ∃ first rest, root.toList = first :: rest ∧ (first.isLower = true ∨ first = '_')) →
        NameApart doc root := by
  obtain ⟨-, -, hne, -⟩ := (Config.check_eq_ok_iff config).1 checked
  obtain ⟨others, hnames, hothers, hmem⟩ := document_names_eq frozen h
  have honce (root : String) (hr : root ∈ config.sdl.roots) :
      (names doc).count root = 1 ↔ root ∉ others := by
    rw [hnames]
    exact count_append_pair hne hr
  have hapart (root : String) (hr : root ∈ config.sdl.roots) :
      NameApart doc root ↔ Unclaimed catalog.entities root := by
    rw [unclaimed_iff]
    constructor
    · intro ⟨hcount, hscalar⟩
      have hother := (honce root hr).1 hcount
      rw [hmem, not_or] at hother
      refine ⟨?_, fun part hof hn => hother.2 ⟨part, hof, hn⟩⟩
      rw [List.mem_cons, not_or]
      exact ⟨hother.1, hscalar⟩
    · intro ⟨hfixed, hparts⟩
      rw [List.mem_cons, not_or] at hfixed
      obtain ⟨hmodifier, hscalar⟩ := hfixed
      refine ⟨(honce root hr).2 fun hm => ?_, hscalar⟩
      rcases (hmem root).1 hm with hn | ⟨part, hof, hn⟩
      · exact hmodifier hn
      · exact hparts part hof hn
  refine ⟨forall₂_congr hapart, ?_, fun root hr hplain => ?_⟩
  · have hnodup : (names doc).Nodup ↔ ∀ root ∈ config.sdl.roots, root ∉ others := by
      rw [hnames]
      exact nodup_append_pair hne hothers
    exact hnodup.trans (forall₂_congr fun root hr => (honce root hr).symm)
  · exact (hapart root hr).2 (unclaimed_of_plain (frozen_entities frozen) hplain)

/-- By their usual names, the root types of the sample document are apart from all else. -/
theorem document_sample_roots_apart : ∃ doc,
    document Schema.Sample.catalog ({} : Config).sdl = .ok doc ∧
      NameApart doc "Queries" ∧ NameApart doc "Mutations" := by
  obtain ⟨doc, hdoc⟩ := document_sample
  obtain ⟨-, -, husual⟩ :=
    document_roots_apart_iff Schema.Sample.schemas_frozen Config.check_default hdoc
  exact ⟨doc, hdoc, husual "Queries" (by decide) (.inl (by decide)),
    husual "Mutations" (by decide) (.inl (by decide))⟩

/-! ## Root types that clash -/

namespace Sample

/-- The queries go by the name of the query input. -/
def modifierRoot : Config := { sdl := { queryType := "QueryModifier" } }

/-- The queries go by the name of an entity, and the mutations by that of a scalar. -/
def workflowRoot : Config := { sdl := { queryType := "Workflow", mutationType := "String" } }

/-- Two sound configurations under which the document of the sample schemas declares a name twice,
and a type with the name of a scalar. -/
theorem document_roots_clash : (∀ schema ∈ Schema.Sample.catalog.schemas, schema.Frozen) ∧
    (modifierRoot.check = .ok () ∧
      ∃ doc, document Schema.Sample.catalog modifierRoot.sdl = .ok doc ∧
        (names doc).count "QueryModifier" = 2) ∧
    (workflowRoot.check = .ok () ∧
      ∃ doc, document Schema.Sample.catalog workflowRoot.sdl = .ok doc ∧
        (names doc).count "Workflow" = 2 ∧ "String" ∈ names doc ∧ "String" ∈ scalarNames) := by
  refine ⟨Schema.Sample.schemas_frozen, ⟨?_, ?_⟩, ?_, ?_⟩
  · exact (Config.check_eq_ok_iff modifierRoot).2 (by decide)
  · exact exists_document (by decide)
  · exact (Config.check_eq_ok_iff workflowRoot).2 (by decide)
  · exact exists_document (by decide)

end Sample

end EntityModel.Sdl
