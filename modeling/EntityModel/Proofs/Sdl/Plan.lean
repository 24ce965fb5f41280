import EntityModel.Proofs.Sdl.Part
import EntityModel.Proofs.Sdl.Shape

/-!
# The plan of a document

A *plan* is a list of parts in an order in which they can be declared: no part comes twice, and
before a part come the shapes that its fields embed. The blocks of the entities are declared along
a plan, although the writer only keeps the names of the shapes that it has declared: a name that
is met again stands for the same part.

Results:
* `Plan.split`: what comes before a block.
* `Follows.addShape`, `Follows.declareEntity`: one step of the writer extends the plan.
* `entityBlocks_plan`, `document_plan`: the blocks follow a plan with exactly the parts that the
  entities need.
-/
namespace EntityModel.Sdl

variable {entities : List Schema}

/-- The block shows the part. -/
def Part.IsShownBy (block : Block) : Part → Prop
  | own entity side => block.IsFor entity.name entity side
  | page entity => block = resultsBlock entity
  | shape name target side => block.IsFor name target side

/-- The shapes that the part's fields embed are among `parts`. -/
def Part.Ready (parts : List Part) (part : Part) : Prop :=
  ∀ schema side, part.shows? = some (schema, side) → ∀ field ∈ schema.fields, field.Visible →
    ∀ target, field.type = .embedded target → shape (schema.shapeName field) target side ∈ parts

/-- Parts that can be declared in this order, each with its block. -/
inductive Plan (entities : List Schema) : List Part → List Block → Prop
  | nil : Plan entities [] []
  | add {parts : List Part} {blocks : List Block} {part : Part} {block : Block} :
      Plan entities parts blocks → part.Of entities → part ∉ parts → part.Ready parts →
      part.IsShownBy block → Plan entities (parts ++ [part]) (blocks ++ [block])

theorem Part.IsShownBy.name_eq {part : Part} {block : Block} (h : part.IsShownBy block) :
    block.name = part.name := by
  cases part with
  | own entity side => exact Block.IsFor.name_eq h
  | page entity => rw [IsShownBy] at h; rw [h]; rfl
  | shape name target side => exact Block.IsFor.name_eq h

theorem Part.IsShownBy.lines_ne_nil {part : Part} {block : Block} (h : part.IsShownBy block) :
    block.lines ≠ [] := by
  cases part with
  | own entity side => exact Block.IsFor.lines_ne_nil h
  | page entity => rw [IsShownBy] at h; rw [h]; simp [resultsBlock]
  | shape name target side => exact Block.IsFor.lines_ne_nil h

theorem Part.Ready.mono {part : Part} {parts parts' : List Part} (h : part.Ready parts)
    (hsub : parts ⊆ parts') : part.Ready parts' :=
  fun schema side hs field hf hv target ht => hsub (h schema side hs field hf hv target ht)

namespace Plan

variable {parts : List Part} {blocks : List Block}

theorem of (h : Plan entities parts blocks) : ∀ part ∈ parts, part.Of entities := by
  induction h with
  | nil => simp
  | add _ hof _ _ _ ih =>
    intro part hp
    rcases List.mem_append.1 hp with hp | hp
    · exact ih part hp
    · rw [List.mem_singleton.1 hp]; exact hof

theorem nodup (h : Plan entities parts blocks) : parts.Nodup := by
  induction h with
  | nil => exact List.nodup_nil
  | add _ _ hn _ _ ih =>
    refine List.nodup_append.2 ⟨ih, by simp, ?_⟩
    intro a ha b hb he
    rw [List.mem_singleton.1 hb] at he
    exact hn (he ▸ ha)

/-- Whatever a part needs is part of the plan. -/
theorem ready (h : Plan entities parts blocks) : ∀ part ∈ parts, part.Ready parts := by
  induction h with
  | nil => simp
  | add _ _ _ hr _ ih =>
    intro part hp
    rcases List.mem_append.1 hp with hp | hp
    · exact (ih part hp).mono (List.subset_append_left _ _)
    · rw [List.mem_singleton.1 hp]; exact hr.mono (List.subset_append_left _ _)

theorem names (h : Plan entities parts blocks) : blocks.map (·.name) = parts.map Part.name := by
  induction h with
  | nil => rfl
  | add _ _ _ _ hs ih => simp [ih, hs.name_eq]

theorem shown (h : Plan entities parts blocks) :
    ∀ part ∈ parts, ∃ block ∈ blocks, part.IsShownBy block := by
  induction h with
  | nil => simp
  | @add _ _ _ block _ _ _ _ hs ih =>
    intro part hp
    rcases List.mem_append.1 hp with hp | hp
    · obtain ⟨other, ho, hs⟩ := ih part hp
      exact ⟨other, List.mem_append_left _ ho, hs⟩
    · rw [List.mem_singleton.1 hp]
      exact ⟨block, by simp, hs⟩

/-- Each block shows a part that was ready when it came. -/
theorem split (h : Plan entities parts blocks) {before after : List Block} {block : Block}
    (hb : blocks = before ++ block :: after) : ∃ earlier, ∃ part : Part, Plan entities earlier before ∧
      part.Of entities ∧ part.Ready earlier ∧ part.IsShownBy block := by
  induction h generalizing after with
  | nil => simp at hb
  | @add parts blocks part last hp hof _ hr hs ih =>
    rcases List.eq_nil_or_concat after with rfl | ⟨rest, final, rfl⟩
    · obtain ⟨rfl, he⟩ := List.append_inj' hb rfl
      obtain rfl := List.singleton_inj.1 he
      exact ⟨parts, part, hp, hof, hr, hs⟩
    · rw [List.concat_eq_append, ← List.cons_append, ← List.append_assoc] at hb
      exact ih (List.append_inj' hb rfl).1

end Plan

/-! ## The writer -/

/-- The names of the parts that some entities need tell them apart. -/
def PartsApart (entities : List Schema) : Prop :=
  ∀ p q : Part, p.Of entities → q.Of entities → p.name = q.name → p = q

/-- The writer has declared the parts, among them the entities `done`, and remembers the shapes. -/
structure Follows (entities done : List Schema) (parts : List Part) (declared : Declared) : Prop where
  plan : Plan entities parts declared.blocks
  shapes : ∀ name ∈ declared.shapes, ∃ target, ∀ side, Part.shape name target side ∈ parts
  names : ∀ name target side, Part.shape name target side ∈ parts → name ∈ declared.shapes
  own : ∀ entity side, Part.own entity side ∈ parts ↔ entity ∈ done
  page : ∀ entity, Part.page entity ∈ parts ↔ entity ∈ done

theorem Plan.names_nodup {parts : List Part} {blocks : List Block} (h : Plan entities parts blocks)
    (ha : PartsApart entities) : (parts.map Part.name).Nodup := by
  rw [List.Nodup, List.pairwise_map]
  refine h.nodup.imp_of_mem fun {p q} hp hq hne hn => ?_
  exact hne (ha p q (h.of p hp) (h.of q hq) hn)

theorem frozen_entities {catalog : Catalog} (frozen : ∀ schema ∈ catalog.schemas, schema.Frozen) :
    ∀ entity ∈ catalog.entities, entity.Frozen :=
  fun entity he => frozen entity (List.mem_filter.1 he).1

theorem entities_nodup {catalog : Catalog} (frozen : ∀ schema ∈ catalog.schemas, schema.Frozen) :
    catalog.entities.Nodup :=
  (catalog.coherent frozen).keys.nodup.filter _

theorem partsApart {catalog : Catalog} (frozen : ∀ schema ∈ catalog.schemas, schema.Frozen) :
    PartsApart catalog.entities :=
  fun _ _ hp hq hn => Part.eq_of_name_eq (catalog.coherent frozen) hp hq hn

theorem PartsApart.shapesApart (h : PartsApart entities) {entity : Schema} (he : entity ∈ entities) :
    ShapesApart entity := by
  intro chain inner field target chain' inner' field' target' ha hb hn
  have hp := h _ _ (.shape .output he ha) (.shape .output he hb) (by simp [Part.name, hn])
  injection hp

namespace Follows

variable {done : List Schema} {parts : List Part} {declared next : Declared}

/-- A name that was declared stands for the one shape that has it. -/
theorem shape_mem (h : Follows entities done parts declared) (ha : PartsApart entities)
    {name : String} {target : Schema} {side : Side} (hof : (Part.shape name target side).Of entities)
    (hn : name ∈ declared.shapes) : Part.shape name target side ∈ parts := by
  obtain ⟨other, hall⟩ := h.shapes name hn
  have heq := ha _ _ (h.plan.of _ (hall side)) hof rfl
  exact heq ▸ hall side

/-- A schema is ready when the names of the shapes that it embeds are declared. -/
theorem ready (h : Follows entities done parts declared) (ha : PartsApart entities)
    {entity schema : Schema} {chain : List Field} (he : entity ∈ entities)
    (hc : entity.Embeds Field.Visible chain schema)
    (hd : ∀ field ∈ schema.fields, field.Visible → ∀ target, field.type = .embedded target →
      schema.shapeName field ∈ declared.shapes) {part : Part} {side : Side}
    (hp : part.shows? = some (schema, side)) : part.Ready parts := by
  intro schema' side' hs field hf hv target ht
  rw [hp] at hs
  cases hs
  exact h.shape_mem ha (.shape side he ⟨hc, hf, hv, ht⟩) (hd field hf hv target ht)

theorem addShape (h : Follows entities done parts declared) (ha : PartsApart entities)
    {entity inner target : Schema} {chain : List Field} {field : Field} (he : entity ∈ entities)
    (hat : entity.EmbedsAt chain inner field target) (hnew : inner.shapeName field ∉ declared.shapes)
    (hd : ∀ below ∈ target.fields, below.Visible → ∀ shape, below.type = .embedded shape →
      target.shapeName below ∈ declared.shapes)
    (hadd : declared.addShape (inner.shapeName field) field.description target = .ok next) :
    ∃ parts, Follows entities done parts next := by
  obtain ⟨output, input, ho, hi, rfl⟩ := addShape_eq_ok hadd
  have hchain := hat.chain.snoc hat.mem hat.visible hat.type
  have hout : Part.shape (inner.shapeName field) target .output ∉ parts :=
    fun hm => hnew (h.names _ _ _ hm)
  have hin : Part.shape (inner.shapeName field) target .input ∉ parts :=
    fun hm => hnew (h.names _ _ _ hm)
  have hplan := h.plan.add (.shape .output he hat) hout (h.ready ha he hchain hd rfl) ho
  have hplan := hplan.add (.shape .input he hat) (by simp [hin])
    ((h.ready ha he hchain hd rfl).mono (List.subset_append_left _ _)) hi
  refine ⟨_, ⟨by simpa using hplan, ?_, ?_, ?_, ?_⟩⟩
  · intro name hn
    rcases List.mem_append.1 hn with hn | hn
    · obtain ⟨other, hall⟩ := h.shapes name hn
      exact ⟨other, fun side => by simp [hall side]⟩
    · obtain rfl := List.mem_singleton.1 hn
      exact ⟨target, fun side => by cases side <;> simp⟩
  · intro name other side hm
    simp only [List.mem_append, List.mem_cons, List.not_mem_nil, or_false, Part.shape.injEq] at hm ⊢
    rcases hm with hm | hm | hm
    · exact .inl (h.names _ _ _ hm)
    · exact .inr hm.1
    · exact .inr hm.1
  · intro entity side
    simp [h.own]
  · intro entity
    simp [h.page]

theorem declareEntity (h : Follows entities done parts declared) (ha : PartsApart entities)
    {entity : Schema} (he : entity ∈ entities) (hs : entity.Frozen) (hnew : entity ∉ done)
    (hdeclare : declareEntity declared entity = .ok next) :
    ∃ parts, Follows entities (done ++ [entity]) parts next := by
  obtain ⟨inner, output, input, hshapes, ho, hi, rfl⟩ := declareEntity_eq_ok hdeclare
  obtain ⟨parts, hinner⟩ : ∃ parts, Follows entities done parts inner := by
    refine declareShapes_induct (I := fun declared => ∃ parts, Follows entities done parts declared)
      hs (ha.shapesApart he) ?_ hshapes ⟨parts, h⟩
    intro chain schema field target declared next hat hnew hd hadd ⟨parts, h⟩
    exact h.addShape ha he hat hnew hd hadd
  have hready {side : Side} : (Part.own entity side).Ready parts :=
    hinner.ready ha he (.here entity) (declareShapes_children hs hshapes) rfl
  have hplan := hinner.plan.add (.own .output he) (by simp [hinner.own, hnew]) hready ho
  have hplan := hplan.add (.own .input he) (by simp [hinner.own, hnew])
    (hready.mono (List.subset_append_left _ _)) hi
  have hplan := hplan.add (.page he) (by simp [hinner.page, hnew]) (by intro _ _ hp; cases hp) rfl
  refine ⟨_, ⟨by simpa using hplan, ?_, ?_, ?_, ?_⟩⟩
  · intro name hn
    obtain ⟨target, hall⟩ := hinner.shapes name hn
    exact ⟨target, fun side => by simp [hall side]⟩
  · intro name target side hm
    exact hinner.names name target side (by simpa using hm)
  · intro other side
    cases side <;> simp [hinner.own]
  · intro other
    simp [hinner.page]

/-- The entities are declared one after the other. -/
theorem declareEntities {todo : List Schema} (h : Follows entities done parts declared)
    (ha : PartsApart entities) (hs : ∀ entity ∈ entities, entity.Frozen)
    (hsub : ∀ entity ∈ todo, entity ∈ entities) (hn : (done ++ todo).Nodup)
    (hdeclare : todo.foldlM Sdl.declareEntity declared = .ok next) :
    ∃ parts, Follows entities (done ++ todo) parts next := by
  induction todo generalizing done parts declared with
  | nil => cases hdeclare; exact ⟨parts, by simpa using h⟩
  | cons entity rest ih =>
    have he := hsub entity (List.mem_cons_self ..)
    have hnew : entity ∉ done := fun hm => (List.nodup_append.1 hn).2.2 _ hm _ (List.mem_cons_self ..) rfl
    rw [List.foldlM_cons] at hdeclare
    cases hfirst : Sdl.declareEntity declared entity with
    | error e => rw [hfirst] at hdeclare; cases hdeclare
    | ok first =>
      rw [hfirst] at hdeclare
      obtain ⟨parts, hf⟩ := h.declareEntity ha he (hs entity he) hnew hfirst
      have := ih hf (fun other ho => hsub other (List.mem_cons_of_mem _ ho)) (by simpa using hn) hdeclare
      simpa using this

end Follows

/-! ## The whole plan -/

/-- A plan that shows a schema has the shapes at the end of every chain in it. -/
theorem Plan.embedded {parts : List Part} {blocks : List Block} (h : Plan entities parts blocks)
    {root inner target : Schema} {chain : List Field} {field : Field} {side : Side}
    (hat : root.EmbedsAt chain inner field target) {part : Part} (hp : part ∈ parts)
    (hs : part.shows? = some (root, side)) :
    Part.shape (inner.shapeName field) target side ∈ parts := by
  obtain ⟨hchain, hf, hv, ht⟩ := hat
  induction hchain generalizing part with
  | here => exact h.ready part hp _ _ hs field hf hv target ht
  | under hf' hv' ht' _ ih =>
    exact ih (h.ready part hp _ _ hs _ hf' hv' _ ht') rfl hf

/-- The blocks of the entities follow a plan with exactly the parts that they need. -/
theorem entityBlocks_plan (ha : PartsApart entities) (hs : ∀ entity ∈ entities, entity.Frozen)
    (hn : entities.Nodup) {blocks : List Block} (h : entityBlocks entities = .ok blocks) :
    ∃ parts, Plan entities parts blocks ∧ ∀ part, part ∈ parts ↔ part.Of entities := by
  unfold entityBlocks at h
  cases hd : entities.foldlM declareEntity {} with
  | error e => rw [hd] at h; cases h
  | ok declared =>
    rw [hd] at h
    cases h
    have hempty : Follows entities [] [] {} := ⟨.nil, by simp, by simp, by simp, by simp⟩
    obtain ⟨parts, hf⟩ := hempty.declareEntities ha hs (fun _ he => he) (by simpa using hn) hd
    refine ⟨parts, hf.plan, fun part => ⟨hf.plan.of part, ?_⟩⟩
    intro hof
    cases hof with
    | own side he => exact (hf.own _ _).2 (by simpa using he)
    | page he => exact (hf.page _).2 (by simpa using he)
    | shape side he hat =>
      exact hf.plan.embedded hat ((hf.own _ side).2 (by simpa using he)) rfl

/-- The blocks of the entities stand between the query input and the root types. -/
theorem document_eq_ok {catalog : Catalog} {layout : Layout} {doc : List Block}
    (h : document catalog layout = .ok doc) : ∃ blocks, entityBlocks catalog.entities = .ok blocks ∧
      doc = queryModifierBlock :: (blocks ++ [queryBlock layout catalog.entities,
        mutationBlock layout catalog.entities, rootsBlock layout]) := by
  unfold document at h
  cases hb : entityBlocks catalog.entities with
  | error e => rw [hb] at h; cases h
  | ok blocks => rw [hb] at h; cases h; exact ⟨blocks, rfl, rfl⟩

/-- Between the query input and the root types, the document of a catalog follows a plan. -/
theorem document_plan {catalog : Catalog} {layout : Layout} {doc : List Block}
    (frozen : ∀ schema ∈ catalog.schemas, schema.Frozen) (h : document catalog layout = .ok doc) :
    ∃ parts blocks, Plan catalog.entities parts blocks ∧
      (∀ part, part ∈ parts ↔ part.Of catalog.entities) ∧
      doc = queryModifierBlock :: (blocks ++ [queryBlock layout catalog.entities,
        mutationBlock layout catalog.entities, rootsBlock layout]) := by
  obtain ⟨blocks, hb, rfl⟩ := document_eq_ok h
  obtain ⟨parts, hplan, hparts⟩ :=
    entityBlocks_plan (partsApart frozen) (frozen_entities frozen) (entities_nodup frozen) hb
  exact ⟨parts, blocks, hplan, hparts, rfl⟩

/-- The text of a catalog renders its document. -/
theorem document_of_text {catalog : Catalog} {layout : Layout} {sdl : String}
    (h : text catalog layout = .ok sdl) :
    ∃ doc, document catalog layout = .ok doc ∧ sdl = render layout doc := by
  unfold text at h
  cases hdoc : document catalog layout with
  | error cause => rw [hdoc] at h; cases h
  | ok doc => rw [hdoc] at h; cases h; exact ⟨doc, rfl, rfl⟩

theorem text_of_document {catalog : Catalog} {layout : Layout} {doc : List Block}
    (h : document catalog layout = .ok doc) : text catalog layout = .ok (render layout doc) := by
  rw [text, h]
  rfl

/-- What is decided of the document shows that there is one. -/
theorem exists_document {catalog : Catalog} {layout : Layout} {p : List Block → Prop}
    [DecidablePred p]
    (h : (document catalog layout).toOption.any (fun doc => decide (p doc)) = true) :
    ∃ doc, document catalog layout = .ok doc ∧ p doc := by
  cases hdoc : document catalog layout with
  | error cause => rw [hdoc] at h; cases h
  | ok doc => rw [hdoc] at h; exact ⟨doc, rfl, of_decide_eq_true h⟩

theorem document_sample : ∃ doc, document Schema.Sample.catalog {} = .ok doc := by
  have hok : (document Schema.Sample.catalog {}).toBool = true := by decide
  cases h : document Schema.Sample.catalog {} with
  | ok doc => exact ⟨doc, rfl⟩
  | error e => rw [h] at hok; cases hok

theorem text_sample : ∃ sdl, text Schema.Sample.catalog {} = .ok sdl := by
  obtain ⟨doc, hdoc⟩ := document_sample
  exact ⟨_, text_of_document hdoc⟩

end EntityModel.Sdl
