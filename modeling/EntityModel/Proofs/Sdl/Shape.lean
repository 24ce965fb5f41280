import EntityModel.Proofs.Schema.Embedding
import EntityModel.Sdl.Document

/-!
# Declaring shapes and entities, step by step

A shape is declared after the shapes that it embeds, unless its name was declared before. Seen from
outside, declaring the shapes of a schema is a series of steps, each of which adds one shape. What
every such step keeps is kept by the whole series.

Results:
* `addShape_written`, `declareEntity_written`: what one step adds, and under which descriptions.
* `declareShapes_children`: afterwards every shape that the schema embeds itself is declared.
* `declareShapes_induct`: what a step keeps, given that the name is new and the inner shapes are
  declared, is kept by the whole series.
-/
namespace EntityModel.Sdl

/-- The block shows the fields of `schema` on one side, under the type name `name`. -/
def Block.IsFor (block : Block) (name : String) (schema : Schema) (side : Side) : Prop :=
  ∃ description, schemaBlock (name ++ side.ending) description schema side = .ok block

theorem schemaBlock_written {name : String} {description : Option String} {schema : Schema}
    {side : Side} {block : Block} (h : schemaBlock name description schema side = .ok block) :
    ∃ lines, linesOf side schema.fields = .ok lines ∧ lines ≠ [] ∧
      block = { keyword := sideKeyword side, name, description, lines } := by
  unfold schemaBlock at h
  cases hl : linesOf side schema.fields with
  | error e => rw [hl] at h; cases h
  | ok lines =>
    cases lines with
    | nil => rw [hl] at h; cases h
    | cons line rest => rw [hl] at h; cases h; exact ⟨_, rfl, by simp, rfl⟩

theorem schemaBlock_eq_ok {name : String} {description : Option String} {schema : Schema}
    {side : Side} {block : Block} (h : schemaBlock name description schema side = .ok block) :
    block.keyword = sideKeyword side ∧ block.name = name ∧
      linesOf side schema.fields = .ok block.lines ∧ block.lines ≠ [] := by
  obtain ⟨lines, hlines, hne, rfl⟩ := schemaBlock_written h
  exact ⟨rfl, rfl, hlines, hne⟩

namespace Block.IsFor

variable {block : Block} {name : String} {schema : Schema} {side : Side}

theorem keyword (h : block.IsFor name schema side) : block.keyword = sideKeyword side :=
  (schemaBlock_eq_ok h.choose_spec).1

theorem name_eq (h : block.IsFor name schema side) : block.name = name ++ side.ending :=
  (schemaBlock_eq_ok h.choose_spec).2.1

theorem lines (h : block.IsFor name schema side) : linesOf side schema.fields = .ok block.lines :=
  (schemaBlock_eq_ok h.choose_spec).2.2.1

theorem lines_ne_nil (h : block.IsFor name schema side) : block.lines ≠ [] :=
  (schemaBlock_eq_ok h.choose_spec).2.2.2

end Block.IsFor

/-- One step writes the two blocks of a shape, the first under the description of the field. -/
theorem addShape_written {declared next : Declared} {name : String} {description : Option String}
    {target : Schema} (h : declared.addShape name description target = .ok next) :
    ∃ output input,
      schemaBlock (name ++ Side.output.ending) (description <|> target.description) target .output
        = .ok output ∧
      schemaBlock (name ++ Side.input.ending) none target .input = .ok input ∧
      next = ⟨declared.blocks ++ [output, input], declared.shapes ++ [name]⟩ := by
  have hname : name ++ Side.output.ending = name := String.append_empty
  rw [hname]
  unfold Declared.addShape at h
  cases ho : schemaBlock name (description <|> target.description) target .output with
  | error e => rw [ho] at h; cases h
  | ok output =>
    cases hi : schemaBlock (name ++ Side.input.ending) none target .input with
    | error e => rw [ho, hi] at h; cases h
    | ok input => rw [ho, hi] at h; cases h; exact ⟨output, input, rfl, rfl, rfl⟩

/-- One step adds the two blocks of a shape, and its name. -/
theorem addShape_eq_ok {declared next : Declared} {name : String} {description : Option String}
    {target : Schema} (h : declared.addShape name description target = .ok next) :
    ∃ output input, output.IsFor name target .output ∧ input.IsFor name target .input ∧
      next = ⟨declared.blocks ++ [output, input], declared.shapes ++ [name]⟩ := by
  obtain ⟨output, input, ho, hi, rfl⟩ := addShape_written h
  exact ⟨output, input, ⟨_, ho⟩, ⟨_, hi⟩, rfl⟩

/-- An entity has its two blocks written after the shapes that it embeds, the first under its
description. -/
theorem declareEntity_written {declared next : Declared} {entity : Schema}
    (h : declareEntity declared entity = .ok next) :
    ∃ inner output input, declareShapes entity declared = .ok inner ∧
      schemaBlock (entity.name ++ Side.output.ending) entity.description entity .output
        = .ok output ∧
      schemaBlock (entity.name ++ Side.input.ending) none entity .input = .ok input ∧
      next = { inner with blocks := inner.blocks ++ [output, input, resultsBlock entity] } := by
  have hname : entity.name ++ Side.output.ending = entity.name := String.append_empty
  rw [hname]
  unfold declareEntity at h
  cases hs : declareShapes entity declared with
  | error e => rw [hs] at h; cases h
  | ok inner =>
    cases ho : schemaBlock entity.name entity.description entity .output with
    | error e => rw [hs] at h; simp only [bind, Except.bind, ho] at h; cases h
    | ok output =>
      cases hi : schemaBlock entity.inputName none entity .input with
      | error e => rw [hs] at h; simp only [bind, Except.bind, ho, hi] at h; cases h
      | ok input =>
        rw [hs] at h
        simp only [bind, Except.bind, ho, hi] at h
        cases h
        exact ⟨inner, output, input, rfl, rfl, hi, rfl⟩

/-- An entity adds its two blocks and its page after the shapes that it embeds. -/
theorem declareEntity_eq_ok {declared next : Declared} {entity : Schema}
    (h : declareEntity declared entity = .ok next) :
    ∃ inner output input, declareShapes entity declared = .ok inner ∧
      output.IsFor entity.name entity .output ∧ input.IsFor entity.name entity .input ∧
      next = { inner with blocks := inner.blocks ++ [output, input, resultsBlock entity] } := by
  obtain ⟨inner, output, input, hs, ho, hi, rfl⟩ := declareEntity_written h
  exact ⟨inner, output, input, hs, ⟨_, ho⟩, ⟨_, hi⟩, rfl⟩

/-! ## A series of steps -/

/-- The first field is passed over, or declares its shape before the rest. -/
theorem declareShapesOf_cons {field : Field} {rest : List Field} {declared next : Declared}
    (h : declareShapesOf (field :: rest) declared = .ok next) :
    (declareShapesOf rest declared = .ok next ∧ ∀ target, field.type = .embedded target →
        field.Visible → ∀ name, field.typeName = .ok name → name ∈ declared.shapes) ∨
      ∃ target name inner outer, field.type = .embedded target ∧ field.Visible ∧
        field.typeName = .ok name ∧ name ∉ declared.shapes ∧
        declareShapes target declared = .ok inner ∧
        inner.addShape name field.description target = .ok outer ∧
        declareShapesOf rest outer = .ok next := by
  obtain ⟨name, type, flags, description, owner⟩ := field
  cases type with
  | scalar kind => exact .inl ⟨by simpa [declareShapesOf] using h, by simp⟩
  | reference target => exact .inl ⟨by simpa [declareShapesOf] using h, by simp⟩
  | embedded target =>
    rw [declareShapesOf] at h
    by_cases hint : flags.internal = true
    · rw [if_pos hint] at h
      exact .inl ⟨h, fun _ _ hv => by simp [Field.Visible, hint] at hv⟩
    · rw [if_neg hint] at h
      cases hn : Field.typeName ⟨name, .embedded target, flags, description, owner⟩ with
      | error e => rw [hn] at h; cases h
      | ok typeName =>
        simp only [hn] at h
        by_cases hd : typeName ∈ declared.shapes
        · rw [if_pos hd] at h
          exact .inl ⟨h, fun _ _ _ other ho => by cases ho; exact hd⟩
        · rw [if_neg hd] at h
          cases hi : declareShapes target declared with
          | error e => rw [hi] at h; cases h
          | ok inner =>
            cases ho : inner.addShape typeName description target with
            | error e => rw [hi] at h; simp only [bind, Except.bind, ho] at h; cases h
            | ok outer =>
              rw [hi] at h
              simp only [bind, Except.bind, ho] at h
              exact .inr ⟨target, typeName, inner, outer, rfl, by simpa [Field.Visible] using hint,
                rfl, hd, hi, ho, h⟩

/-- What every field that declares its shape keeps is kept by a list of them. -/
theorem declareShapesOf_induct {I : Declared → Prop} {fields : List Field} {declared next : Declared}
    (step : ∀ field ∈ fields, ∀ target name declared inner outer, field.type = .embedded target →
      field.Visible → field.typeName = .ok name → name ∉ declared.shapes →
      declareShapes target declared = .ok inner →
      inner.addShape name field.description target = .ok outer → I declared → I outer)
    (h : declareShapesOf fields declared = .ok next) (hd : I declared) : I next := by
  induction fields generalizing declared with
  | nil => rw [declareShapesOf] at h; cases h; exact hd
  | cons field rest ih =>
    have hrest := fun other ho => step other (List.mem_cons_of_mem _ ho)
    rcases declareShapesOf_cons h with ⟨h, -⟩ | ⟨target, name, inner, outer, ht, hv, hn, hf, hi, ho, h⟩
    · exact ih hrest h hd
    · exact ih hrest h (step field (List.mem_cons_self ..) target name declared inner outer
        ht hv hn hf hi ho hd)

/-- Nothing that was declared is lost. -/
theorem declareShapes_mono {schema : Schema} {declared next : Declared} {name : String}
    (h : declareShapes schema declared = .ok next) (hn : name ∈ declared.shapes) :
    name ∈ next.shapes := by
  induction schema using Schema.induct generalizing declared next with
  | step schema ih =>
    rw [declareShapes_eq] at h
    refine declareShapesOf_induct (I := (name ∈ ·.shapes)) ?_ h hn
    intro field hf target _ declared inner outer ht _ _ _ hi ho hn
    obtain ⟨_, _, _, _, rfl⟩ := addShape_eq_ok ho
    exact List.mem_append_left _ (ih field hf target (Schema.target?_of_embedded ht) hi hn)

theorem declareShapesOf_mono {fields : List Field} {declared next : Declared} {name : String}
    (h : declareShapesOf fields declared = .ok next) (hn : name ∈ declared.shapes) :
    name ∈ next.shapes := by
  refine declareShapesOf_induct (I := (name ∈ ·.shapes)) ?_ h hn
  intro field hf target _ declared inner outer _ _ _ _ hi ho hn
  obtain ⟨_, _, _, _, rfl⟩ := addShape_eq_ok ho
  exact List.mem_append_left _ (declareShapes_mono hi hn)

/-- The shapes that a schema embeds itself are declared afterwards. -/
theorem declareShapes_children {schema : Schema} (hs : schema.Frozen) {declared next : Declared}
    (h : declareShapes schema declared = .ok next) : ∀ field ∈ schema.fields, field.Visible →
      ∀ target, field.type = .embedded target → schema.shapeName field ∈ next.shapes := by
  rw [declareShapes_eq] at h
  have hname : ∀ field ∈ schema.fields, ∀ target, field.type = .embedded target →
      field.typeName = .ok (schema.shapeName field) :=
    fun field hf target ht => hs.typeName hf (by simp [Field.isEmbedded, ht])
  generalize schema.fields = fields at h hname
  induction fields generalizing declared with
  | nil => simp
  | cons first rest ih =>
    have hrest := fun field hf => hname field (List.mem_cons_of_mem _ hf)
    intro field hf hv target ht
    have hn := hname field hf target ht
    rcases declareShapesOf_cons h with ⟨h, hd⟩ | ⟨_, name, _, outer, _, _, hn', _, _, ho, h⟩
    · rcases List.mem_cons.1 hf with rfl | hf
      · exact declareShapesOf_mono h (hd target ht hv _ hn)
      · exact ih h hrest field hf hv target ht
    · rcases List.mem_cons.1 hf with rfl | hf
      · obtain ⟨_, _, _, _, rfl⟩ := addShape_eq_ok ho
        rw [hn] at hn'
        cases hn'
        exact declareShapesOf_mono h (by simp)
      · exact ih h hrest field hf hv target ht

/-- Shapes of one name that a schema embeds are one shape. -/
def ShapesApart (schema : Schema) : Prop :=
  ∀ chain inner field target chain' inner' field' target',
    schema.EmbedsAt chain inner field target → schema.EmbedsAt chain' inner' field' target' →
      inner.shapeName field = inner'.shapeName field' → target = target'

theorem ShapesApart.target {schema : Schema} (h : ShapesApart schema) {field : Field}
    (hf : field ∈ schema.fields) (hv : field.Visible) {target : Schema}
    (ht : field.type = .embedded target) : ShapesApart target :=
  fun _ _ _ _ _ _ _ _ ha hb he => h _ _ _ _ _ _ _ _ (ha.under hf hv ht) (hb.under hf hv ht) he

/-- What is kept by every step that adds a shape under a new name, after the shapes inside it, is
kept by the whole series. -/
theorem declareShapes_induct {I : Declared → Prop} {schema : Schema} (hs : schema.Frozen)
    (ha : ShapesApart schema) {declared next : Declared}
    (step : ∀ chain inner field target declared next, schema.EmbedsAt chain inner field target →
      inner.shapeName field ∉ declared.shapes →
      (∀ below ∈ target.fields, below.Visible → ∀ shape, below.type = .embedded shape →
        target.shapeName below ∈ declared.shapes) →
      declared.addShape (inner.shapeName field) field.description target = .ok next →
      I declared → I next)
    (h : declareShapes schema declared = .ok next) (hd : I declared) : I next := by
  induction schema using Schema.induct generalizing I declared next with
  | step schema ih =>
    rw [declareShapes_eq] at h
    refine declareShapesOf_induct ?_ h hd
    intro field hf target name declared inner outer ht hv hn hnew hi ho hd
    have ht' := Schema.target?_of_embedded ht
    have htarget := hs.target hf ht'
    have hat : schema.EmbedsAt [] schema field target := ⟨.here schema, hf, hv, ht⟩
    rw [hs.typeName hf hat.isEmbedded] at hn
    cases hn
    -- no shape inside the target has its name, for it would be the target itself
    have hfresh : schema.shapeName field ∉ inner.shapes := by
      refine ih field hf target ht' (I := (schema.shapeName field ∉ ·.shapes)) htarget
        (ha.target hf hv ht) ?_ hi hnew
      intro chain inner below shape declared next hbelow _ _ hadd hnot
      obtain ⟨_, _, _, _, rfl⟩ := addShape_eq_ok hadd
      have hne : schema.shapeName field ≠ inner.shapeName below := by
        intro he
        have := ha _ _ _ _ _ _ _ _ hat (hbelow.under hf hv ht) he
        have := hbelow.sizeOf_lt
        subst_vars
        omega
      simpa [hne] using hnot
    have hinner : I inner := by
      refine ih field hf target ht' htarget (ha.target hf hv ht) ?_ hi hd
      intro chain inner below shape declared next hbelow
      exact step _ _ _ _ _ _ (hbelow.under hf hv ht)
    exact step _ _ _ _ _ _ hat hfresh (declareShapes_children htarget hi) ho hinner

end EntityModel.Sdl
