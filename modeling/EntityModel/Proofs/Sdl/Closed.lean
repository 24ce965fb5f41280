import EntityModel.Proofs.Sdl.Plan

/-!
# Every type is declared

What a document names it declares. The fields of a part are scalars, references to entities, and
shapes; entities and shapes are parts of the plan again, on the side that the field is on, and the
shapes come before the part. The root types name pages and inputs of entities.

Results:
* `Plan.line_resolves`: a line of a part resolves among the parts.
* `document_closed`: every line and argument of a document resolves in it, and a shape is declared
  before the blocks that show it.
-/
namespace EntityModel.Sdl

/-- The scalars that a document may name. -/
def scalarNames : List String := ["Boolean", "Float", "ID", "Int", "String"]

/-- The keyword of what a block's fields name: inputs are made of inputs, all else of types. -/
def Keyword.ofFields : Keyword → Keyword
  | input => input
  | _ => type

/-- The name under the wrapping of the type is a scalar, or is declared under the keyword. -/
def Resolves (doc : List Block) (keyword : Keyword) (type : TypeRef) : Prop :=
  type.base ∈ scalarNames ∨ ∃ block ∈ doc, block.keyword = keyword ∧ block.name = type.base

/-- Every reference in the schema leads to an entity. -/
def ReferencesEntities (schema : Schema) : Prop :=
  ∀ chain inner field target, schema.Embeds (fun _ => True) chain inner → field ∈ inner.fields →
    field.type = .reference target → target.isEntity = true

theorem referencesEntities_iff (schema : Schema) :
    ReferencesEntities schema ↔ ∀ link ∈ schema.links, link.target.isEntity = true := by
  constructor
  · intro h link hl
    obtain ⟨chain, inner, field, hc, hf, ht, -⟩ := Schema.mem_links.1 hl
    exact h chain inner field link.target hc hf ht
  · intro h chain inner field target hc hf ht
    exact h ⟨(chain ++ [field]).map (·.name), target⟩
      (Schema.mem_links.2 ⟨chain, inner, field, hc, hf, ht, rfl⟩)

theorem Resolves.mono {doc doc' : List Block} {keyword : Keyword} {type : TypeRef}
    (h : Resolves doc keyword type) (hsub : doc ⊆ doc') : Resolves doc' keyword type := by
  rcases h with h | ⟨block, hb, h⟩
  · exact .inl h
  · exact .inr ⟨block, hsub hb, h⟩

/-! ## Lines -/

/-- A pass that succeeds has succeeded on every element. -/
theorem map_eq_of_mapM_eq_ok {α β ε : Type} {f : α → Except ε β} {xs : List α} {ys : List β}
    (h : xs.mapM f = .ok ys) : xs.map f = ys.map .ok := by
  induction xs generalizing ys with
  | nil => cases h; rfl
  | cons x rest ih =>
    rw [List.mapM_cons] at h
    cases hx : f x with
    | error e => rw [hx] at h; cases h
    | ok first =>
      cases hr : rest.mapM f with
      | error e => simp only [hx, hr, bind, Except.bind] at h; cases h
      | ok others =>
        simp only [hx, hr, bind, Except.bind, pure, Except.pure, Except.ok.injEq] at h
        subst h
        simp [ih hr, hx]

theorem fieldLine_eq_ok {side : Side} {field : Field} {line : Line} :
    fieldLine side field = .ok line ↔
      line.name = field.name ∧ line.argument = none ∧ field.typeRef side = .ok line.type := by
  obtain ⟨name, argument, type⟩ := line
  unfold fieldLine
  cases field.typeRef side with
  | error e => simp [Except.map]
  | ok other => simp only [Except.map, Except.ok.injEq, Line.mk.injEq]; grind

/-- Each line of a block is that of a field that its side shows. -/
theorem field_of_mem_linesOf {side : Side} {fields : List Field} {lines : List Line}
    (h : linesOf side fields = .ok lines) {line : Line} (hl : line ∈ lines) :
    ∃ field ∈ fields, field.isShown side = true ∧ fieldLine side field = .ok line := by
  have hm : Except.ok line ∈ lines.map (.ok (ε := GenerationError)) := List.mem_map_of_mem hl
  rw [← map_eq_of_mapM_eq_ok h] at hm
  obtain ⟨field, hf, hline⟩ := List.mem_map.1 hm
  obtain ⟨hf, hshown⟩ := List.mem_filter.1 hf
  exact ⟨field, hf, hshown, hline⟩

/-- Each field that the side shows has a line. -/
theorem line_of_isShown {side : Side} {fields : List Field} {lines : List Line}
    (h : linesOf side fields = .ok lines) {field : Field} (hf : field ∈ fields)
    (hshown : field.isShown side = true) : ∃ line ∈ lines, fieldLine side field = .ok line := by
  have hfilter : field ∈ fields.filter (·.isShown side) := List.mem_filter.2 ⟨hf, hshown⟩
  have hm := List.mem_map_of_mem (f := fieldLine side) hfilter
  rw [map_eq_of_mapM_eq_ok h] at hm
  obtain ⟨line, hl, hline⟩ := List.mem_map.1 hm
  exact ⟨line, hl, hline.symm⟩

theorem base_mem_scalarNames {kind : ScalarKind} {type : TypeRef} (h : kind.typeRef? = some type) :
    type.base ∈ scalarNames := by
  cases kind <;> cases h <;> decide

/-! ## Parts -/

theorem Part.IsShownBy.shows {part : Part} {block : Block} (h : part.IsShownBy block)
    {schema : Schema} {side : Side} (hs : part.shows? = some (schema, side)) :
    block.keyword = sideKeyword side ∧ linesOf side schema.fields = .ok block.lines := by
  cases part with
  | own entity other => cases hs; exact ⟨Block.IsFor.keyword h, Block.IsFor.lines h⟩
  | page entity => cases hs
  | shape name target other => cases hs; exact ⟨Block.IsFor.keyword h, Block.IsFor.lines h⟩

theorem ofFields_sideKeyword (side : Side) : (sideKeyword side).ofFields = sideKeyword side := by
  cases side <;> rfl

section Plan

variable {entities : List Schema} {parts : List Part} {blocks : List Block}

/-- A part that shows a schema is declared under its name and the keyword of its side. -/
theorem Plan.declared (h : Plan entities parts blocks) {part : Part} (hp : part ∈ parts)
    {schema : Schema} {side : Side} (hs : part.shows? = some (schema, side)) :
    ∃ block ∈ blocks, block.keyword = sideKeyword side ∧ block.name = part.name := by
  obtain ⟨block, hb, hshown⟩ := h.shown part hp
  exact ⟨block, hb, (hshown.shows hs).1, hshown.name_eq⟩

/-- What a field of a schema shows resolves, when the shapes of the schema are in the plan and
references lead to entities in it. -/
theorem Plan.typeRef_resolves (h : Plan entities parts blocks) {part : Part}
    (hr : part.Ready parts) {schema : Schema} {side : Side}
    (hs : part.shows? = some (schema, side)) (hschema : schema.Frozen) {field : Field}
    (hf : field ∈ schema.fields) (hshown : field.isShown side = true)
    (href : ∀ target, field.type = .reference target → Part.own target .output ∈ parts)
    {type : TypeRef} (ht : field.typeRef side = .ok type) :
    Resolves blocks (sideKeyword side) type := by
  obtain ⟨item, hi, hbase⟩ := Field.typeRef_base ht
  unfold Resolves
  rw [hbase]
  unfold Field.itemType at hi
  cases htype : field.type with
  | scalar kind =>
    simp only [htype] at hi
    cases hk : kind.typeRef? with
    | none => simp [hk] at hi
    | some scalar =>
      simp only [hk, Except.ok.injEq] at hi
      subst hi
      exact .inl (base_mem_scalarNames hk)
  | reference target =>
    simp only [htype] at hi
    cases side with
    | input => cases hi; left; decide
    | output =>
      cases hi
      obtain ⟨block, hb, hk, hn⟩ := h.declared (href target htype) rfl
      exact .inr ⟨block, hb, hk, hn.trans String.append_empty⟩
  | embedded target =>
    have he : field.isEmbedded = true := by simp [Field.isEmbedded, htype]
    simp only [htype, hschema.embeddedName hf he] at hi
    cases hi
    have hv := Field.visible_of_isShown hshown
    exact .inr (h.declared (hr schema side hs field hf hv target htype) rfl)

end Plan

/-- A reference in a part leads to an entity of the catalog. -/
theorem mem_entities_of_reference {catalog : Catalog}
    (frozen : ∀ schema ∈ catalog.schemas, schema.Frozen)
    (references : ∀ schema ∈ catalog.schemas, ReferencesEntities schema) {part : Part}
    (hp : part.Of catalog.entities) {schema target : Schema} {side : Side} {field : Field}
    (hs : part.shows? = some (schema, side)) (hf : field ∈ schema.fields)
    (ht : field.type = .reference target) : target ∈ catalog.entities := by
  obtain ⟨entity, he, chain, hc⟩ := hp.embeds hs
  have hm := (List.mem_filter.1 he).1
  have hchain := hc.imp (q := fun _ => True) fun _ _ => trivial
  have htarget := (catalog.coherent frozen).references entity hm chain schema field target hchain hf ht
  exact List.mem_filter.2 ⟨htarget, references entity hm chain schema field target hchain hf ht⟩

/-- A line of a part resolves among the parts of the catalog. -/
theorem Plan.line_resolves {catalog : Catalog}
    (frozen : ∀ schema ∈ catalog.schemas, schema.Frozen)
    (references : ∀ schema ∈ catalog.schemas, ReferencesEntities schema)
    {parts : List Part} {blocks : List Block} (h : Plan catalog.entities parts blocks)
    (hparts : ∀ part, part ∈ parts ↔ part.Of catalog.entities) {block : Block}
    (hb : block ∈ blocks) {line : Line} (hl : line ∈ block.lines) :
    line.argument = none ∧ Resolves blocks block.keyword.ofFields line.type := by
  obtain ⟨before, after, hsplit⟩ := List.append_of_mem hb
  obtain ⟨-, part, -, hof, -, hshown⟩ := h.split hsplit
  cases hshows : part.shows? with
  | none =>
    cases hof with
    | own => cases hshows
    | shape => cases hshows
    | @page entity he =>
      rw [Part.IsShownBy] at hshown
      subst hshown
      obtain ⟨own, ho, hk, hn⟩ := h.declared ((hparts _).2 (.own .output he)) rfl
      simp only [resultsBlock, List.mem_cons, List.not_mem_nil, or_false] at hl
      rcases hl with rfl | rfl | rfl
      · exact ⟨rfl, .inr ⟨own, ho, hk, hn.trans String.append_empty⟩⟩
      · exact ⟨rfl, .inl (show "Int" ∈ scalarNames by decide)⟩
      · exact ⟨rfl, .inl (show "Int" ∈ scalarNames by decide)⟩
  | some shown =>
    obtain ⟨schema, side⟩ := shown
    obtain ⟨hk, hlines⟩ := hshown.shows hshows
    obtain ⟨field, hf, hfield, hline⟩ := field_of_mem_linesOf hlines hl
    obtain ⟨-, hargument, htype⟩ := fieldLine_eq_ok.1 hline
    obtain ⟨entity, he, chain, hc⟩ := hof.embeds hshows
    have hschema := hc.frozen (frozen_entities frozen entity he)
    have hown : ∀ target, field.type = .reference target → Part.own target .output ∈ parts :=
      fun target ht => (hparts _).2
        (.own .output (mem_entities_of_reference frozen references hof hshows hf ht))
    rw [hk, ofFields_sideKeyword]
    exact ⟨hargument, h.typeRef_resolves (h.ready part ((hparts part).2 hof)) hshows hschema hf hfield
      hown htype⟩

/-! ## Documents -/

/-- A block of a document is the first one, one of the last ones, or comes between them. -/
theorem split_between {first block : Block} {blocks last before after : List Block}
    (h : first :: (blocks ++ last) = before ++ block :: after) : block = first ∨ block ∈ last ∨
      ∃ front back, before = first :: front ∧ blocks = front ++ block :: back := by
  cases before with
  | nil => exact .inl (List.cons.inj h).1.symm
  | cons head front =>
    rw [List.cons_append, List.cons.injEq] at h
    obtain ⟨rfl, h⟩ := h
    rcases List.append_eq_append_iff.1 h with ⟨rest, -, hlast⟩ | ⟨rest, hblocks, hafter⟩
    · right; left
      rw [hlast]
      simp
    · cases rest with
      | nil =>
        right; left
        rw [← List.nil_append last, ← hafter]
        exact List.mem_cons_self ..
      | cons other back =>
        obtain ⟨rfl, -⟩ := List.cons.inj hafter
        exact .inr (.inr ⟨front, back, rfl, hblocks⟩)

theorem argumentOn_resolves {doc : List Block} (entity : Schema)
    (hmodifier : queryModifierBlock ∈ doc)
    (hinput : ∃ block ∈ doc, block.keyword = .input ∧ block.name = entity.inputName)
    (operation : Operation) : Resolves doc .input (operation.argumentOn entity).type := by
  cases operation with
  | insert => exact .inr hinput
  | update => exact .inr hinput
  | getMany => exact .inr ⟨_, hmodifier, rfl, rfl⟩
  | getOne => exact .inl (show "String" ∈ scalarNames by decide)
  | delete => exact .inl (show "String" ∈ scalarNames by decide)

theorem resultOn_resolves {doc : List Block} (entity : Schema)
    (hpage : resultsBlock entity ∈ doc) (operation : Operation) :
    Resolves doc .type (operation.resultOn entity) := by
  cases operation with
  | getOne => exact .inr ⟨_, hpage, rfl, rfl⟩
  | getMany => exact .inr ⟨_, hpage, rfl, rfl⟩
  | insert => exact .inl (show "ID" ∈ scalarNames by decide)
  | update => exact .inl (show "ID" ∈ scalarNames by decide)
  | delete => exact .inl (show "ID" ∈ scalarNames by decide)

/-- The root fields name what is declared for their entities. -/
theorem rootLine_resolves {doc : List Block} {entities : List Schema}
    (hmodifier : queryModifierBlock ∈ doc) (hpage : ∀ entity ∈ entities, resultsBlock entity ∈ doc)
    (hinput : ∀ entity ∈ entities,
      ∃ block ∈ doc, block.keyword = .input ∧ block.name = entity.inputName)
    {operations : List Operation} {line : Line} (hl : line ∈ rootLines entities operations) :
    Resolves doc .type line.type ∧
      ∀ argument, line.argument = some argument → Resolves doc .input argument.type := by
  obtain ⟨entity, he, hl⟩ := List.mem_flatMap.1 hl
  obtain ⟨operation, -, rfl⟩ := List.mem_map.1 hl
  refine ⟨resultOn_resolves entity (hpage entity he) operation, ?_⟩
  intro argument ha
  cases ha
  exact argumentOn_resolves entity hmodifier (hinput entity he) operation

/-- The shapes of a part's fields are declared before it, each under the name that its line has. -/
theorem Plan.shapes_first {entities : List Schema} (hs : ∀ entity ∈ entities, entity.Frozen)
    {parts : List Part} {before : List Block} (h : Plan entities parts before) {part : Part}
    (hof : part.Of entities) (hr : part.Ready parts) {block : Block} (hb : part.IsShownBy block)
    {schema : Schema} {side : Side} (hshows : part.shows? = some (schema, side)) :
    ∀ field ∈ schema.fields, field.isShown side = true → field.isEmbedded = true →
      ∃ line ∈ block.lines, line.name = field.name ∧
        field.embeddedName side = .ok line.type.base ∧
        ∃ earlier ∈ before, earlier.keyword = sideKeyword side ∧
          earlier.name = line.type.base := by
  intro field hf hshown he
  obtain ⟨entity, hentity, chain, hc⟩ := hof.embeds hshows
  have hname := (hc.frozen (hs entity hentity)).embeddedName hf he side
  obtain ⟨line, hl, hline⟩ := line_of_isShown (hb.shows hshows).2 hf hshown
  obtain ⟨hlname, -, htype⟩ := fieldLine_eq_ok.1 hline
  obtain ⟨item, hi, hbase⟩ := Field.typeRef_base htype
  obtain ⟨target, ht⟩ : ∃ target, field.type = .embedded target := by
    unfold Field.isEmbedded at he
    split at he
    · next target ht => exact ⟨target, ht⟩
    · cases he
  have hitem : item = .named (schema.shapeName field ++ side.ending) := by
    simp only [Field.itemType, ht, hname, Except.ok.injEq] at hi
    exact hi.symm
  rw [hitem] at hbase
  have hv := Field.visible_of_isShown hshown
  obtain ⟨earlier, hearlier, hk, hn⟩ := h.declared (hr schema side hshows field hf hv target ht) rfl
  exact ⟨line, hl, hlname, by rw [hname, hbase]; rfl, earlier, hearlier, hk, by rw [hn, hbase]; rfl⟩

/-- Every line of a document, and every argument, resolves in it. -/
theorem document_lines_resolve {catalog : Catalog} {layout : Layout} {doc : List Block}
    (frozen : ∀ schema ∈ catalog.schemas, schema.Frozen)
    (references : ∀ schema ∈ catalog.schemas, ReferencesEntities schema)
    (h : document catalog layout = .ok doc) {block : Block} (hb : block ∈ doc) {line : Line}
    (hl : line ∈ block.lines) : Resolves doc block.keyword.ofFields line.type ∧
      ∀ argument, line.argument = some argument → Resolves doc .input argument.type := by
  obtain ⟨parts, blocks, hplan, hparts, hdoc⟩ := document_plan frozen h
  have hsub : blocks ⊆ doc := by
    intro other ho
    simp [hdoc, ho]
  have hmodifier : queryModifierBlock ∈ doc := by simp [hdoc]
  have hpage : ∀ entity ∈ catalog.entities, resultsBlock entity ∈ doc := by
    intro entity he
    obtain ⟨_, hb, rfl⟩ := hplan.shown _ ((hparts _).2 (.page he))
    exact hsub hb
  have hinput : ∀ entity ∈ catalog.entities,
      ∃ block ∈ doc, block.keyword = .input ∧ block.name = entity.inputName := by
    intro entity he
    obtain ⟨input, hi, hinput⟩ := hplan.declared ((hparts _).2 (.own .input he)) rfl
    exact ⟨input, hsub hi, hinput⟩
  rw [hdoc] at hb
  rcases List.mem_cons.1 hb with rfl | hb
  · have hscalar : ∀ line ∈ queryModifierBlock.lines,
        line.argument = none ∧ line.type.base ∈ scalarNames := by decide
    obtain ⟨hargument, hbase⟩ := hscalar line hl
    exact ⟨.inl hbase, by simp [hargument]⟩
  · rcases List.mem_append.1 hb with hb | hb
    · obtain ⟨hargument, hline⟩ := hplan.line_resolves frozen references hparts hb hl
      exact ⟨hline.mono hsub, by simp [hargument]⟩
    · simp only [List.mem_cons, List.not_mem_nil, or_false] at hb
      rcases hb with rfl | rfl | rfl
      · exact rootLine_resolves hmodifier hpage hinput hl
      · exact rootLine_resolves hmodifier hpage hinput hl
      · simp only [rootsBlock, List.mem_cons, List.not_mem_nil, or_false] at hl
        rcases hl with rfl | rfl
        · exact ⟨.inr ⟨queryBlock layout catalog.entities, by simp [hdoc], rfl, rfl⟩, by simp⟩
        · exact ⟨.inr ⟨mutationBlock layout catalog.entities, by simp [hdoc], rfl, rfl⟩, by simp⟩

/-- **Closedness.** When every reference leads to an entity, every line of a document and every
argument names a scalar or what the document declares, inputs in inputs and arguments, types in
all else. A block that shows a schema has a line for each shape that it embeds on its side, and
that shape is declared by an earlier block; the other blocks are the query input, pages and the
roots. -/
theorem document_closed {catalog : Catalog} {layout : Layout} {doc : List Block}
    (frozen : ∀ schema ∈ catalog.schemas, schema.Frozen)
    (references : ∀ schema ∈ catalog.schemas, ReferencesEntities schema)
    (h : document catalog layout = .ok doc) :
    (∀ block ∈ doc, ∀ line ∈ block.lines, Resolves doc block.keyword.ofFields line.type ∧
      ∀ argument, line.argument = some argument → Resolves doc .input argument.type) ∧
    ∀ before block after, doc = before ++ block :: after →
      block ∈ queryModifierBlock :: (catalog.entities.map resultsBlock
          ++ [queryBlock layout catalog.entities, mutationBlock layout catalog.entities,
            rootsBlock layout]) ∨
        ∃ part : Part, ∃ schema side, part.Of catalog.entities ∧ part.shows? = some (schema, side) ∧
          block.keyword = sideKeyword side ∧ block.name = part.name ∧
          linesOf side schema.fields = .ok block.lines ∧
          ∀ field ∈ schema.fields, field.isShown side = true → field.isEmbedded = true →
            ∃ line ∈ block.lines, line.name = field.name ∧
              field.embeddedName side = .ok line.type.base ∧
              ∃ earlier ∈ before, earlier.keyword = sideKeyword side ∧
                earlier.name = line.type.base := by
  refine ⟨fun block hb line hl => document_lines_resolve frozen references h hb hl, ?_⟩
  intro before block after hsplit
  obtain ⟨parts, blocks, hplan, hparts, rfl⟩ := document_plan frozen h
  rcases split_between hsplit with rfl | hlast | ⟨front, back, rfl, hfront⟩
  · exact .inl (List.mem_cons_self ..)
  · exact .inl (List.mem_cons_of_mem _ (List.mem_append_right _ hlast))
  · obtain ⟨earlier, part, hbefore, hof, hr, hshown⟩ := hplan.split hfront
    cases hshows : part.shows? with
    | none =>
      left
      cases hof with
      | own => cases hshows
      | shape => cases hshows
      | page he =>
        rw [Part.IsShownBy] at hshown
        simp [hshown, List.mem_map_of_mem he]
    | some shown =>
      obtain ⟨schema, side⟩ := shown
      obtain ⟨hk, hlines⟩ := hshown.shows hshows
      right
      refine ⟨part, schema, side, hof, hshows, hk, hshown.name_eq, hlines, ?_⟩
      intro field hf hfield he
      obtain ⟨line, hl, hn, hname, other, ho, hother⟩ :=
        hbefore.shapes_first (frozen_entities frozen) hof hr hshown hshows field hf hfield he
      exact ⟨line, hl, hn, hname, other, List.mem_cons_of_mem _ ho, hother⟩

/-- The document of the sample schemas is closed: workflows refer to categories, an entity. -/
theorem document_sample_closed : ∃ doc, document Schema.Sample.catalog {} = .ok doc ∧
    ∀ block ∈ doc, ∀ line ∈ block.lines, Resolves doc block.keyword.ofFields line.type := by
  have href : ∀ schema ∈ Schema.Sample.schemas, ReferencesEntities schema := by
    simp only [referencesEntities_iff]
    decide
  obtain ⟨doc, hdoc⟩ := document_sample
  have h := document_closed Schema.Sample.schemas_frozen href hdoc
  exact ⟨doc, hdoc, fun block hb line hl => (h.1 block hb line hl).1⟩

end EntityModel.Sdl
