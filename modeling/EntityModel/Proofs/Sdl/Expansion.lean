import EntityModel.Proofs.Sdl.Closed
import EntityModel.Proofs.Sdl.Distinct
import EntityModel.Selection

/-!
# Selections expand the types of a document

What a client reads of an entity and the types that a document declares are both made from the
fields that are not internal, but a selection goes from a field to its target, and a document from
a type name to the block that declares it. The two agree: a selection without exclusions is what
comes of writing out the entity's type, and the types that its lines name, down to the scalars.

Results:
* `Expands.names`: an expansion has the names of the block's lines, in order.
* `Plan.isTypeOf`: the type name of a part stands for one block of the document.
* `Plan.expands`: a schema that the plan shows is read as its type expands.
* `selection_expands`: an entity is read as its type expands.
-/
namespace EntityModel.Sdl

/-! ## Expansions -/

/-- `block` is the one type of the document that is called `name`. -/
structure IsTypeOf (doc : List Block) (name : String) (block : Block) : Prop where
  mem : block ∈ doc
  keyword : block.keyword = .type
  name_eq : block.name = name
  unique : ∀ other ∈ doc, other.keyword = .type → other.name = name → other = block

mutual

/-- The selections write out the type called `name`, which shows `schema`. -/
inductive Expands (doc : List Block) : Schema → String → List Selection → Prop
  | type {schema : Schema} {name : String} {block : Block} {selections : List Selection} :
      IsTypeOf doc name block →
      ExpandsLines doc schema (schema.fields.filter (·.isShown .output)) block.lines selections →
      Expands doc schema name selections

/-- The selections write out lines, each for one field of `schema`: a scalar by its name, anything
else by its name and all that is in the type that the line names. -/
inductive ExpandsLines (doc : List Block) : Schema → List Field → List Line → List Selection → Prop
  | nil {schema : Schema} : ExpandsLines doc schema [] [] []
  | scalar {schema : Schema} {field : Field} {fields : List Field} {line : Line} {lines : List Line}
      {selections : List Selection} {kind : ScalarKind} :
      field.type = .scalar kind → line.name = field.name →
      ExpandsLines doc schema fields lines selections →
      ExpandsLines doc schema (field :: fields) (line :: lines) (.leaf line.name :: selections)
  | reference {schema target : Schema} {field : Field} {fields : List Field} {line : Line}
      {lines : List Line} {children selections : List Selection} :
      field.type = .reference target → line.name = field.name → line.type.base = target.name →
      Expands doc target line.type.base children → children ≠ [] →
      ExpandsLines doc schema fields lines selections →
      ExpandsLines doc schema (field :: fields) (line :: lines)
        (.nested line.name children :: selections)
  | embedded {schema target : Schema} {field : Field} {fields : List Field} {line : Line}
      {lines : List Line} {children selections : List Selection} :
      field.type = .embedded target → line.name = field.name →
      line.type.base = schema.shapeName field →
      Expands doc target line.type.base children → children ≠ [] →
      ExpandsLines doc schema fields lines selections →
      ExpandsLines doc schema (field :: fields) (line :: lines)
        (.nested line.name children :: selections)

end

theorem ExpandsLines.names {doc : List Block} {schema : Schema} : ∀ {fields : List Field}
    {lines : List Line} {selections : List Selection},
    ExpandsLines doc schema fields lines selections →
      selections.map Selection.name = lines.map (·.name)
  | _, _, _, .nil => rfl
  | _, _, _, .scalar _ _ h => by simp [Selection.name, h.names]
  | _, _, _, .reference _ _ _ _ _ h => by simp [Selection.name, h.names]
  | _, _, _, .embedded _ _ _ _ _ h => by simp [Selection.name, h.names]

/-- An expansion has the names of the block's lines, in order. -/
theorem Expands.names {doc : List Block} {schema : Schema} {name : String}
    {selections : List Selection} (h : Expands doc schema name selections) :
    ∃ block, IsTypeOf doc name block ∧ selections.map Selection.name = block.lines.map (·.name) := by
  cases h with
  | type hblock hlines => exact ⟨_, hblock, hlines.names⟩

/-! ## Lines and selections, field by field -/

theorem linesOf_cons_hidden {side : Side} {field : Field} {rest : List Field}
    (h : field.isShown side = false) : linesOf side (field :: rest) = linesOf side rest := by
  simp [linesOf, h]

theorem linesOf_cons_shown {side : Side} {field : Field} {rest : List Field} {lines : List Line}
    (hshown : field.isShown side = true) (h : linesOf side (field :: rest) = .ok lines) :
    ∃ line others, fieldLine side field = .ok line ∧ linesOf side rest = .ok others ∧
      lines = line :: others := by
  simp only [linesOf, List.filter_cons, hshown, if_true, List.mapM_cons] at h
  cases hf : fieldLine side field with
  | error e => rw [hf] at h; cases h
  | ok line =>
    cases hr : (rest.filter (·.isShown side)).mapM (fieldLine side) with
    | error e => simp only [hf, hr, bind, Except.bind] at h; cases h
    | ok others =>
      simp only [hf, hr, bind, Except.bind, pure, Except.pure, Except.ok.injEq] at h
      exact ⟨line, others, rfl, hr, h.symm⟩

theorem base_of_reference {field : Field} {target : Schema} {line : Line}
    (ht : field.type = .reference target) (h : fieldLine .output field = .ok line) :
    line.type.base = target.name := by
  obtain ⟨item, hi, hbase⟩ := Field.typeRef_base (fieldLine_eq_ok.1 h).2.2
  simp only [Field.itemType, ht, Except.ok.injEq] at hi
  rw [hbase, ← hi, TypeRef.base]

theorem base_of_embedded {schema : Schema} (hs : schema.Frozen) {field : Field}
    (hf : field ∈ schema.fields) {target : Schema} {line : Line}
    (ht : field.type = .embedded target) (h : fieldLine .output field = .ok line) :
    line.type.base = schema.shapeName field := by
  have he : field.isEmbedded = true := by simp [Field.isEmbedded, ht]
  obtain ⟨item, hi, hbase⟩ := Field.typeRef_base (fieldLine_eq_ok.1 h).2.2
  simp only [Field.itemType, ht, hs.embeddedName hf he, Except.ok.injEq] at hi
  rw [hbase, ← hi, TypeRef.base, Side.ending, String.append_empty]

theorem selectionOf_cons_hidden {field : Field} {rest : List Field} {above : Option String}
    (h : field.isShown .output = false) :
    Schema.selectionOf [] (field :: rest) above = Schema.selectionOf [] rest above := by
  obtain ⟨name, type, flags, description, owner⟩ := field
  have hint : flags.internal = true := by simpa [Field.isShown] using h
  simp [Schema.selectionOf, hint]

theorem selectionOf_cons_shown {field : Field} {rest : List Field} {above : Option String}
    (h : field.isShown .output = true) :
    Schema.selectionOf [] (field :: rest) above =
      Schema.selectionOfType [] field.type field.name (fieldPath above field.name)
        ++ Schema.selectionOf [] rest above := by
  obtain ⟨name, type, flags, description, owner⟩ := field
  have hint : flags.internal = false := by simpa [Field.isShown] using h
  simp [Schema.selectionOf, hint]

theorem selectionOfType_reference {target : Schema} {name path : String}
    (h : target.selectionAt [] (some path) ≠ []) :
    Schema.selectionOfType [] (.reference target) name path
      = [.nested name (target.selectionAt [] (some path))] := by
  rw [Schema.selectionOfType]
  split
  · next hnil => exact absurd hnil h
  · rfl

theorem selectionOfType_embedded {target : Schema} {name path : String}
    (h : target.selectionAt [] (some path) ≠ []) :
    Schema.selectionOfType [] (.embedded target) name path
      = [.nested name (target.selectionAt [] (some path))] := by
  rw [Schema.selectionOfType]
  split
  · next hnil => exact absurd hnil h
  · rfl

/-- `schema` is read, at any path, as the type called `name` expands, and something is read. -/
def ReadAs (doc : List Block) (schema : Schema) (name : String) : Prop :=
  ∀ above, Expands doc schema name (schema.selectionAt [] above) ∧ schema.selectionAt [] above ≠ []

/-- Fields are read as their lines expand when their targets are read as the types expand that the
lines name. -/
theorem expandsLines_selectionOf {doc : List Block} {schema : Schema} (hs : schema.Frozen)
    {fields : List Field} (hsub : fields ⊆ schema.fields) {lines : List Line}
    (hl : linesOf .output fields = .ok lines) (above : Option String)
    (href : ∀ field ∈ fields, field.isShown .output = true → ∀ target,
      field.type = .reference target → ReadAs doc target target.name)
    (hshape : ∀ field ∈ fields, field.isShown .output = true → ∀ target,
      field.type = .embedded target → ReadAs doc target (schema.shapeName field)) :
    ExpandsLines doc schema (fields.filter (·.isShown .output)) lines
      (Schema.selectionOf [] fields above) := by
  induction fields generalizing lines with
  | nil => cases hl; simpa [Schema.selectionOf] using ExpandsLines.nil
  | cons field rest ih =>
    have hrest {lines : List Line} (hl : linesOf .output rest = .ok lines) :=
      ih (fun _ hm => hsub (List.mem_cons_of_mem _ hm)) hl
        (fun other ho => href other (List.mem_cons_of_mem _ ho))
        (fun other ho => hshape other (List.mem_cons_of_mem _ ho))
    have hf := List.mem_cons_self (a := field) (l := rest)
    cases hshown : field.isShown .output with
    | false =>
      rw [linesOf_cons_hidden hshown] at hl
      rw [selectionOf_cons_hidden hshown, List.filter_cons, hshown, if_neg Bool.false_ne_true]
      exact hrest hl
    | true =>
      obtain ⟨line, others, hline, hothers, rfl⟩ := linesOf_cons_shown hshown hl
      have hname := (fieldLine_eq_ok.1 hline).1
      rw [selectionOf_cons_shown hshown, List.filter_cons, if_pos hshown, ← hname]
      cases ht : field.type with
      | scalar kind =>
        rw [Schema.selectionOfType]
        exact .scalar ht hname (hrest hothers)
      | reference target =>
        have hbase := base_of_reference ht hline
        obtain ⟨hexpands, hne⟩ := href field hf hshown target ht (some (fieldPath above line.name))
        rw [selectionOfType_reference hne]
        exact .reference ht hname hbase (hbase ▸ hexpands) hne (hrest hothers)
      | embedded target =>
        have hbase := base_of_embedded hs (hsub hf) ht hline
        obtain ⟨hexpands, hne⟩ := hshape field hf hshown target ht (some (fieldPath above line.name))
        rw [selectionOfType_embedded hne]
        exact .embedded ht hname hbase (hbase ▸ hexpands) hne (hrest hothers)

/-! ## Documents -/

section Plan

variable {catalog : Catalog} {parts : List Part} {blocks doc : List Block}

/-- Blocks of one name in a plan are one block. -/
theorem Plan.block_eq_of_name_eq {entities : List Schema} (h : Plan entities parts blocks)
    (ha : PartsApart entities) {a b : Block} (hma : a ∈ blocks) (hmb : b ∈ blocks)
    (he : a.name = b.name) : a = b := by
  have hn : (blocks.map (·.name)).Nodup := h.names ▸ h.names_nodup ha
  have hp : blocks.Pairwise fun a b => a.name ≠ b.name := List.pairwise_map.1 hn
  exact List.Pairwise.forall_of_forall_of_flip (R := fun a b => a.name = b.name → a = b)
    (fun _ _ _ => rfl) (hp.imp fun hne heq => absurd heq hne)
    (hp.imp fun hne heq => absurd heq.symm hne) hma hmb he

/-- With the usual names of the root types, the name of a part stands for one block. -/
theorem Plan.isTypeOf (frozen : ∀ schema ∈ catalog.schemas, schema.Frozen)
    (h : Plan catalog.entities parts blocks)
    (hdoc : doc = queryModifierBlock :: (blocks
      ++ [queryBlock {} catalog.entities, mutationBlock {} catalog.entities, rootsBlock {}]))
    {part : Part} (hp : part ∈ parts) {schema : Schema} (hs : part.shows? = some (schema, .output)) :
    ∃ block, part.IsShownBy block ∧ IsTypeOf doc part.name block := by
  subst hdoc
  obtain ⟨block, hb, hshown⟩ := h.shown part hp
  have hfixed := (h.of part hp).name_not_fixed (frozen_entities frozen)
  refine ⟨block, hshown, ⟨by simp [hb], (hshown.shows hs).1, hshown.name_eq, ?_⟩⟩
  intro other ho hk hn
  rcases List.mem_cons.1 ho with rfl | ho
  · cases hk
  · rcases List.mem_append.1 ho with ho | ho
    · exact h.block_eq_of_name_eq (partsApart frozen) ho hb (hn.trans hshown.name_eq.symm)
    · simp only [List.mem_cons, List.not_mem_nil, or_false] at ho
      rw [← hn] at hfixed
      rcases ho with rfl | rfl | rfl
      · exact absurd (show "Queries" ∈ fixedNames by decide) hfixed
      · exact absurd (show "Mutations" ∈ fixedNames by decide) hfixed
      · cases hk

/-- A schema that the plan shows to clients is read as the type of its part expands. -/
theorem Plan.expands (frozen : ∀ schema ∈ catalog.schemas, schema.Frozen)
    (references : ∀ schema ∈ catalog.schemas, ReferencesEntities schema)
    (h : Plan catalog.entities parts blocks)
    (hparts : ∀ part, part ∈ parts ↔ part.Of catalog.entities)
    (hdoc : doc = queryModifierBlock :: (blocks
      ++ [queryBlock {} catalog.entities, mutationBlock {} catalog.entities, rootsBlock {}]))
    {schema : Schema} {part : Part} (hp : part ∈ parts)
    (hs : part.shows? = some (schema, .output)) : ReadAs doc schema part.name := by
  induction schema using Schema.induct generalizing part with
  | step schema ih =>
    intro above
    obtain ⟨block, hshown, htype⟩ := h.isTypeOf frozen hdoc hp hs
    obtain ⟨entity, he, chain, hc⟩ := (h.of part hp).embeds hs
    have hschema := hc.frozen (frozen_entities frozen entity he)
    have hlines := (hshown.shows hs).2
    have hexpands := expandsLines_selectionOf hschema (fun _ hm => hm) hlines above
      (fun field hf _ target ht => by
        have htarget := mem_entities_of_reference frozen references (h.of part hp) hs hf ht
        have := ih field hf target (by simp [Field.target?, ht, FieldType.target?])
          ((hparts _).2 (.own .output htarget)) rfl
        rwa [Part.name, Side.ending, String.append_empty] at this)
      (fun field hf hshown target ht => by
        have := ih field hf target (Schema.target?_of_embedded ht)
          (h.ready part hp schema .output hs field hf (Field.visible_of_isShown hshown) target ht) rfl
        rwa [Part.name, Side.ending, String.append_empty] at this)
    rw [← Schema.selectionAt_eq] at hexpands
    refine ⟨.type htype hexpands, ?_⟩
    intro hnil
    have hnames := hexpands.names
    rw [hnil, List.map_nil] at hnames
    exact hshown.lines_ne_nil (List.map_eq_nil_iff.1 hnames.symm)

end Plan

/-- **Expansion.** When every reference leads to an entity and the document is written, what a
client reads of an entity is the complete expansion of the entity's type: at every level the names
of the lines of the one type there, with braces just at references and embedded fields, and in the
braces the expansion of the type that the line names. -/
theorem selection_expands {catalog : Catalog} {doc : List Block}
    (frozen : ∀ schema ∈ catalog.schemas, schema.Frozen)
    (references : ∀ schema ∈ catalog.schemas, ReferencesEntities schema)
    (h : document catalog {} = .ok doc) :
    ∀ entity ∈ catalog.entities, Expands doc entity entity.name (entity.selection []) := by
  intro entity he
  obtain ⟨parts, blocks, hplan, hparts, hdoc⟩ := document_plan frozen h
  have hread := hplan.expands frozen references hparts hdoc ((hparts _).2 (.own .output he)) rfl
  rw [Part.name, Side.ending, String.append_empty] at hread
  exact (hread none).1

/-- What is read of a sample workflow, down to the shape in a shape and the fields of a category. -/
theorem selection_sample_expands : ∃ doc, document Schema.Sample.catalog {} = .ok doc ∧
    Expands doc Schema.Sample.workflow "Workflow" [.leaf "_id",
      .nested "category" [.leaf "createdBy", .leaf "label"],
      .nested "steps" [.nested "detail" [.leaf "note"], .leaf "stepName"]] := by
  have href : ∀ schema ∈ Schema.Sample.schemas, ReferencesEntities schema := by
    simp only [referencesEntities_iff]
    decide
  have hm : Schema.Sample.workflow ∈ Schema.Sample.catalog.entities := by decide
  obtain ⟨doc, hdoc⟩ := document_sample
  exact ⟨doc, hdoc, selection_expands Schema.Sample.schemas_frozen href hdoc _ hm⟩

end EntityModel.Sdl
