import EntityModel.Proofs.Sdl.Closed

/-!
# When a document is refused

The writer stops at the first block that it cannot write: one without lines, or one with a field
of the scalar kind that GraphQL has no type for. It passes over a shape whose name it has met.
That hides no faulty shape, since a name met again stands for the same shape, and it makes no
difference to what is refused how the document is laid out.

Results:
* `schemaBlock_eq_error`: why a block cannot be written.
* `declareShapes_eq_error`, `declareEntity_eq_error`: a step that fails does so at a part of the
  document.
* `Schema.Presentable`, `Plan.presentable`: what every schema in a written document meets.
* `text_ok_iff_presentable`: a document is written exactly when all its schemas meet it.
-/
namespace EntityModel

/-- What a schema needs to be shown on both sides: a field that clients send, and a GraphQL type
for every scalar that they see. -/
structure Schema.Presentable (schema : Schema) : Prop where
  sent : ∃ field ∈ schema.fields, field.flags.internal = false ∧ field.flags.audit = false
  typed : ∀ field ∈ schema.fields, field.flags.internal = false → field.type ≠ .scalar .mixed

/-- Why a schema has no block called `name` on one side. -/
inductive Schema.Refused (schema : Schema) (name : String) (side : Side) : GenerationError → Prop
  | empty : (∀ field ∈ schema.fields, field.isShown side = false) →
      Refused schema name side (.emptyType name)
  | untyped {field : Field} : field ∈ schema.fields → field.isShown side = true →
      field.type = .scalar .mixed →
      Refused schema name side (.unsupportedType field.name .mixed)

theorem Field.isShown_output (field : Field) : field.isShown .output = !field.flags.internal := by
  simp [isShown]

theorem Field.isShown_input (field : Field) :
    field.isShown .input = (!field.flags.internal && !field.flags.audit) := by
  simp [isShown, show (Side.input == Side.output) = false from rfl]

theorem Schema.Refused.not_presentable {schema : Schema} {name : String} {side : Side}
    {cause : GenerationError} (h : schema.Refused name side cause) : ¬ schema.Presentable := by
  intro ⟨⟨field, hf, hv, ha⟩, htyped⟩
  cases h with
  | empty hnone =>
    have := hnone field hf
    cases side
    · simp [Field.isShown_output, hv] at this
    · simp [Field.isShown_input, hv, ha] at this
  | untyped hother hshown ht => exact htyped _ hother (Field.visible_of_isShown hshown) ht

namespace Sdl

/-! ## Blocks -/

/-- A pass that fails has failed on an element. -/
theorem exists_of_mapM_eq_error {α β ε : Type} {f : α → Except ε β} {xs : List α} {e : ε}
    (h : xs.mapM f = .error e) : ∃ x ∈ xs, f x = .error e := by
  induction xs with
  | nil => cases h
  | cons x rest ih =>
    rw [List.mapM_cons] at h
    cases hx : f x with
    | error e' =>
      rw [hx] at h
      cases h
      exact ⟨x, List.mem_cons_self .., hx⟩
    | ok first =>
      cases hr : rest.mapM f with
      | ok others => simp only [hx, hr, bind, Except.bind] at h; cases h
      | error e' =>
        simp only [hx, hr, bind, Except.bind] at h
        cases h
        obtain ⟨y, hy, hfy⟩ := ih hr
        exact ⟨y, List.mem_cons_of_mem _ hy, hfy⟩

/-- In a frozen schema only a scalar of the mixed kind has no type. -/
theorem fieldLine_eq_error {schema : Schema} (hs : schema.Frozen) {field : Field}
    (hf : field ∈ schema.fields) {side : Side} {cause : GenerationError}
    (h : fieldLine side field = .error cause) :
    field.type = .scalar .mixed ∧ cause = .unsupportedType field.name .mixed := by
  have hitem : field.itemType side = .error cause := by
    unfold fieldLine Field.typeRef at h
    cases hi : field.itemType side with
    | error e => rw [hi] at h; cases h; rfl
    | ok item => rw [hi] at h; cases h
  unfold Field.itemType at hitem
  cases ht : field.type with
  | scalar kind =>
    cases kind <;> simp [ht, ScalarKind.typeRef?] at hitem
    exact ⟨rfl, hitem.symm⟩
  | reference target => cases side <;> simp [ht] at hitem
  | embedded target =>
    have he : field.isEmbedded = true := by simp [Field.isEmbedded, ht]
    simp [ht, hs.embeddedName hf he] at hitem

theorem fieldLine_mixed {side : Side} {field : Field} (h : field.type = .scalar .mixed) :
    fieldLine side field = .error (.unsupportedType field.name .mixed) := by
  simp [fieldLine, Field.typeRef, Field.itemType, h, ScalarKind.typeRef?, Except.map]

/-- A block that cannot be written has no line to show, or a field without a type. -/
theorem schemaBlock_eq_error {schema : Schema} (hs : schema.Frozen) {name : String}
    {description : Option String} {side : Side} {cause : GenerationError}
    (h : schemaBlock name description schema side = .error cause) :
    schema.Refused name side cause := by
  unfold schemaBlock at h
  cases hl : linesOf side schema.fields with
  | error e =>
    rw [hl] at h
    cases h
    obtain ⟨field, hf, hline⟩ := exists_of_mapM_eq_error hl
    obtain ⟨hf, hshown⟩ := List.mem_filter.1 hf
    obtain ⟨ht, rfl⟩ := fieldLine_eq_error hs hf hline
    exact .untyped hf hshown ht
  | ok lines =>
    cases lines with
    | cons line rest => rw [hl] at h; cases h
    | nil =>
      rw [hl] at h
      cases h
      refine .empty fun field hf => ?_
      cases hshown : field.isShown side with
      | false => rfl
      | true =>
        obtain ⟨_, hline, -⟩ := line_of_isShown hl hf hshown
        cases hline

/-! ## Steps that fail -/

/-- The part has no block, for the cause. -/
def Part.Refused (part : Part) (cause : GenerationError) : Prop :=
  ∃ schema side, part.shows? = some (schema, side) ∧ schema.Refused part.name side cause

/-- One of the two sides of a shape cannot be shown. -/
theorem addShape_eq_error {declared : Declared} {name : String} {description : Option String}
    {target : Schema} (ht : target.Frozen) {cause : GenerationError}
    (h : declared.addShape name description target = .error cause) :
    ∃ side, (Part.shape name target side).Refused cause := by
  unfold Declared.addShape at h
  cases ho : schemaBlock name (description <|> target.description) target .output with
  | error e =>
    rw [ho] at h
    cases h
    have houtput : (Part.shape name target .output).name = name := String.append_empty
    exact ⟨.output, target, .output, rfl, houtput.symm ▸ schemaBlock_eq_error ht ho⟩
  | ok output =>
    cases hi : schemaBlock (name ++ Side.input.ending) none target .input with
    | error e =>
      rw [ho, hi] at h
      cases h
      exact ⟨.input, target, .input, rfl, schemaBlock_eq_error ht hi⟩
    | ok input => rw [ho, hi] at h; cases h

/-- A series that fails does so at the first field or after it. -/
theorem declareShapesOf_cons_error {field : Field} {rest : List Field} {declared : Declared}
    {name : String} {cause : GenerationError}
    (hn : field.isEmbedded = true → field.typeName = .ok name)
    (h : declareShapesOf (field :: rest) declared = .error cause) :
    (∃ later, declareShapesOf rest later = .error cause) ∨
      ∃ target, field.type = .embedded target ∧ field.Visible ∧
        (declareShapes target declared = .error cause ∨
          ∃ inner : Declared, inner.addShape name field.description target = .error cause) := by
  obtain ⟨fieldName, type, flags, description, owner⟩ := field
  cases type with
  | scalar kind => exact .inl ⟨declared, by simpa [declareShapesOf] using h⟩
  | reference target => exact .inl ⟨declared, by simpa [declareShapesOf] using h⟩
  | embedded target =>
    simp only [declareShapesOf, hn rfl] at h
    split at h
    · exact .inl ⟨declared, h⟩
    · next hint =>
      split at h
      · exact .inl ⟨declared, h⟩
      · have hv : Field.Visible ⟨fieldName, .embedded target, flags, description, owner⟩ := by
          simpa [Field.Visible] using hint
        cases hi : declareShapes target declared with
        | error e => rw [hi] at h; cases h; exact .inr ⟨target, rfl, hv, .inl hi⟩
        | ok inner =>
          rw [hi] at h
          simp only [bind, Except.bind] at h
          cases ho : inner.addShape name description target with
          | error e => rw [ho] at h; cases h; exact .inr ⟨target, rfl, hv, .inr ⟨inner, ho⟩⟩
          | ok outer => rw [ho] at h; exact .inl ⟨outer, h⟩

/-- A schema whose shapes cannot be declared embeds one that cannot be shown. -/
theorem declareShapes_eq_error {schema : Schema} (hs : schema.Frozen) {declared : Declared}
    {cause : GenerationError} (h : declareShapes schema declared = .error cause) :
    ∃ chain inner field target, ∃ side : Side, schema.EmbedsAt chain inner field target ∧
      (Part.shape (inner.shapeName field) target side).Refused cause := by
  induction schema using Schema.induct generalizing declared with
  | step schema ih =>
    rw [declareShapes_eq] at h
    -- the fields still to come are fields of the schema throughout
    have hseries : ∀ fields, fields ⊆ schema.fields → ∀ declared,
        declareShapesOf fields declared = .error cause →
        ∃ chain inner field target, ∃ side : Side, schema.EmbedsAt chain inner field target ∧
          (Part.shape (inner.shapeName field) target side).Refused cause := by
      intro fields
      induction fields with
      | nil => intro _ _ h; cases h
      | cons field rest ihrest =>
        intro hsub declared h
        have hf := hsub (List.mem_cons_self ..)
        rcases declareShapesOf_cons_error (hs.typeName hf) h with
          ⟨later, h⟩ | ⟨target, ht, hv, hinner | ⟨inner, hadd⟩⟩
        · exact ihrest (fun _ hm => hsub (List.mem_cons_of_mem _ hm)) later h
        · have ht' := Schema.target?_of_embedded ht
          obtain ⟨chain, inner, below, shape, side, hat, hrefused⟩ :=
            ih field hf target ht' (hs.target hf ht') hinner
          exact ⟨_, inner, below, shape, side, hat.under hf hv ht, hrefused⟩
        · have htarget := hs.target hf (Schema.target?_of_embedded ht)
          obtain ⟨side, hrefused⟩ := addShape_eq_error htarget hadd
          exact ⟨[], schema, field, target, side, ⟨.here schema, hf, hv, ht⟩, hrefused⟩
    exact hseries schema.fields (fun _ hm => hm) declared h

/-- An entity that cannot be declared needs a part that cannot be shown. -/
theorem declareEntity_eq_error {entities : List Schema} {entity : Schema} (he : entity ∈ entities)
    (hs : entity.Frozen) {declared : Declared} {cause : GenerationError}
    (h : declareEntity declared entity = .error cause) :
    ∃ part : Part, part.Of entities ∧ part.Refused cause := by
  unfold declareEntity at h
  cases hd : declareShapes entity declared with
  | error e =>
    rw [hd] at h
    cases h
    obtain ⟨_, _, _, _, side, hat, hrefused⟩ := declareShapes_eq_error hs hd
    exact ⟨_, .shape side he hat, hrefused⟩
  | ok inner =>
    rw [hd] at h
    simp only [bind, Except.bind] at h
    cases ho : schemaBlock entity.name entity.description entity .output with
    | error e =>
      rw [ho] at h
      cases h
      have houtput : (Part.own entity .output).name = entity.name := String.append_empty
      exact ⟨_, .own .output he, entity, .output, rfl, houtput.symm ▸ schemaBlock_eq_error hs ho⟩
    | ok output =>
      rw [ho] at h
      simp only at h
      cases hi : schemaBlock entity.inputName none entity .input with
      | error e =>
        rw [hi] at h
        cases h
        exact ⟨_, .own .input he, entity, .input, rfl, schemaBlock_eq_error hs hi⟩
      | ok input => rw [hi] at h; cases h

/-- A fold that fails has failed at an element. -/
theorem exists_of_foldlM_eq_error {α β ε : Type} {f : β → α → Except ε β} {xs : List α} {start : β}
    {e : ε} (h : xs.foldlM f start = .error e) : ∃ x ∈ xs, ∃ acc, f acc x = .error e := by
  induction xs generalizing start with
  | nil => cases h
  | cons x rest ih =>
    rw [List.foldlM_cons] at h
    cases hx : f start x with
    | error e' => rw [hx] at h; cases h; exact ⟨x, List.mem_cons_self .., start, hx⟩
    | ok next =>
      rw [hx] at h
      obtain ⟨y, hy, hfy⟩ := ih h
      exact ⟨y, List.mem_cons_of_mem _ hy, hfy⟩

/-! ## Documents -/

theorem text_eq_ok_iff {catalog : Catalog} {layout : Layout} :
    (∃ sdl, text catalog layout = .ok sdl) ↔ ∃ blocks, entityBlocks catalog.entities = .ok blocks := by
  unfold text document
  cases entityBlocks catalog.entities <;> simp [Except.map]

theorem text_eq_error_iff {catalog : Catalog} {layout : Layout} {cause : GenerationError} :
    text catalog layout = .error cause ↔ entityBlocks catalog.entities = .error cause := by
  unfold text document
  cases entityBlocks catalog.entities <;> simp [Except.map]

theorem entityBlocks_eq_error {entities : List Schema} (hs : ∀ entity ∈ entities, entity.Frozen)
    {cause : GenerationError} (h : entityBlocks entities = .error cause) :
    ∃ part : Part, part.Of entities ∧ part.Refused cause := by
  unfold entityBlocks at h
  cases hd : entities.foldlM declareEntity {} with
  | ok declared => rw [hd] at h; cases h
  | error e =>
    rw [hd] at h
    cases h
    obtain ⟨entity, he, declared, hentity⟩ := exists_of_foldlM_eq_error hd
    exact declareEntity_eq_error he (hs entity he) hentity

/-- What is written on both sides can be shown. -/
theorem presentable_of_linesOf {schema : Schema} {output input : List Line}
    (ho : linesOf .output schema.fields = .ok output) (hi : linesOf .input schema.fields = .ok input)
    (hne : input ≠ []) : schema.Presentable where
  sent := by
    obtain ⟨line, hl⟩ := List.exists_mem_of_ne_nil _ hne
    obtain ⟨field, hf, hshown, -⟩ := field_of_mem_linesOf hi hl
    rw [Field.isShown_input, Bool.and_eq_true, Bool.not_eq_true', Bool.not_eq_true'] at hshown
    exact ⟨field, hf, hshown⟩
  typed := by
    intro field hf hv ht
    have hshown : field.isShown .output = true := by rw [Field.isShown_output, hv]; rfl
    obtain ⟨line, -, hline⟩ := line_of_isShown ho hf hshown
    rw [fieldLine_mixed ht] at hline
    cases hline

/-- A schema in sight of clients is shown on both sides. -/
theorem Part.Of.exists_shows {entities : List Schema} {entity schema : Schema} {chain : List Field}
    (he : entity ∈ entities) (hc : entity.Embeds Field.Visible chain schema) (side : Side) :
    ∃ part : Part, part.Of entities ∧ part.shows? = some (schema, side) := by
  rcases List.eq_nil_or_concat chain with rfl | ⟨front, last, rfl⟩
  · cases hc
    exact ⟨_, .own side he, rfl⟩
  · rw [List.concat_eq_append] at hc
    obtain ⟨inner, hfront, hf, hv, ht⟩ := hc.unsnoc
    exact ⟨_, .shape side he ⟨hfront, hf, hv, ht⟩, rfl⟩

/-- Every schema that a plan shows can be shown, whichever part of that name it was met as first. -/
theorem Plan.presentable {entities : List Schema} {parts : List Part} {blocks : List Block}
    (h : Plan entities parts blocks) (hparts : ∀ part, part ∈ parts ↔ part.Of entities)
    {entity schema : Schema} {chain : List Field} (he : entity ∈ entities)
    (hc : entity.Embeds Field.Visible chain schema) : schema.Presentable := by
  have hblock (side : Side) : ∃ block : Block,
      linesOf side schema.fields = .ok block.lines ∧ block.lines ≠ [] := by
    obtain ⟨part, hof, hshows⟩ := Part.Of.exists_shows he hc side
    obtain ⟨block, -, hb⟩ := h.shown part ((hparts part).2 hof)
    exact ⟨block, (hb.shows hshows).2, hb.lines_ne_nil⟩
  obtain ⟨output, ho, -⟩ := hblock .output
  obtain ⟨input, hi, hne⟩ := hblock .input
  exact presentable_of_linesOf ho hi hne

theorem entityBlocks_ok_iff {catalog : Catalog}
    (frozen : ∀ schema ∈ catalog.schemas, schema.Frozen) :
    (∃ blocks, entityBlocks catalog.entities = .ok blocks) ↔ ∀ entity ∈ catalog.entities,
      ∀ chain schema, entity.Embeds Field.Visible chain schema → schema.Presentable := by
  have hs := frozen_entities frozen
  constructor
  · intro ⟨blocks, hb⟩ entity he chain schema hc
    obtain ⟨parts, hplan, hparts⟩ :=
      entityBlocks_plan (partsApart frozen) hs (entities_nodup frozen) hb
    exact hplan.presentable hparts he hc
  · intro h
    cases hb : entityBlocks catalog.entities with
    | ok blocks => exact ⟨blocks, rfl⟩
    | error cause =>
      obtain ⟨part, hof, schema, side, hshows, hrefused⟩ := entityBlocks_eq_error hs hb
      obtain ⟨entity, he, chain, hc⟩ := hof.embeds hshows
      exact absurd (h entity he chain schema hc) hrefused.not_presentable

/-- **Refusal.** The document of a catalog is written exactly when every entity, and every shape
that an entity embeds in sight of clients, can be shown. When it is not, one of its parts has no
line or a field without a GraphQL type, and that is the cause. The layout plays no role. -/
theorem text_ok_iff_presentable {catalog : Catalog}
    (frozen : ∀ schema ∈ catalog.schemas, schema.Frozen) :
    (∀ layout, (∃ sdl, text catalog layout = .ok sdl) ↔ ∀ entity ∈ catalog.entities,
      ∀ chain schema, entity.Embeds Field.Visible chain schema → schema.Presentable) ∧
    (∀ layout cause, text catalog layout = .error cause →
      (∃ part : Part, part.Of catalog.entities ∧ part.Refused cause) ∧
        ((∃ name, cause = .emptyType name) ∨ ∃ field, cause = .unsupportedType field .mixed)) ∧
    ∀ layout layout' cause, text catalog layout = .error cause ↔ text catalog layout' = .error cause := by
  refine ⟨fun layout => text_eq_ok_iff.trans (entityBlocks_ok_iff frozen), ?_, ?_⟩
  · intro layout cause h
    obtain ⟨part, hof, hrefused⟩ := entityBlocks_eq_error (frozen_entities frozen) (text_eq_error_iff.1 h)
    refine ⟨⟨part, hof, hrefused⟩, ?_⟩
    obtain ⟨schema, side, -, hcause⟩ := hrefused
    cases hcause with
    | empty => exact .inl ⟨_, rfl⟩
    | untyped => exact .inr ⟨_, rfl⟩
  · intro layout layout' cause
    exact text_eq_error_iff.trans text_eq_error_iff.symm

/-- The document of the sample schemas is written, so the inner one of two embedded shapes can be
shown. -/
theorem text_sample_presentable : (∃ sdl, text Schema.Sample.catalog { descriptions := true } = .ok sdl) ∧
    Schema.Sample.detail.Presentable := by
  have hok : ∃ sdl, text Schema.Sample.catalog { descriptions := true } = .ok sdl := by
    have hblocks : (entityBlocks Schema.Sample.catalog.entities).toBool = true := by decide
    refine text_eq_ok_iff.2 ?_
    cases h : entityBlocks Schema.Sample.catalog.entities with
    | ok blocks => exact ⟨blocks, rfl⟩
    | error cause => rw [h] at hblocks; cases hblocks
  have hm : Schema.Sample.workflow ∈ Schema.Sample.catalog.entities := by decide
  have hc : Schema.Sample.workflow.Embeds Field.Visible
      [{ Field.ofSchema "steps" Schema.Sample.step with owner := some "Workflow", flags := { array := true } },
        { Field.ofSchema "detail" Schema.Sample.detail with owner := some "Step" }]
      Schema.Sample.detail :=
    .under (by simp [Schema.Sample.workflow]) rfl rfl
      (.under (by simp [Schema.Sample.step]) rfl rfl (.here _))
  exact ⟨hok, ((text_ok_iff_presentable Schema.Sample.schemas_frozen).1 _).1 hok _ hm _ _ hc⟩

end Sdl

end EntityModel
