import EntityModel.Sdl.Block

/-!
# Types of schemas

The blocks that a schema is read and sent with. A shape that an entity embeds has a type and an
input, declared after the shapes that it embeds itself; a shape reached again is declared once.

Results:
* `declareShapes_eq`: a schema declares what its fields declare.
-/
namespace EntityModel.Sdl

/-- The line of a field. -/
def fieldLine (side : Side) (field : Field) : Except GenerationError Line :=
  (field.typeRef side).map fun type => { name := field.name, type }

/-- The lines of the fields that one side shows. -/
def linesOf (side : Side) (fields : List Field) : Except GenerationError (List Line) :=
  (fields.filter (·.isShown side)).mapM (fieldLine side)

/-- The keyword of a side. -/
def sideKeyword : Side → Keyword
  | .output => .type
  | .input => .input

/-- The block of a schema on one side, which must have a line. -/
def schemaBlock (name : String) (description : Option String) (schema : Schema) (side : Side) :
    Except GenerationError Block := do
  let lines ← linesOf side schema.fields
  if lines.isEmpty then .error (.emptyType name)
  else .ok { keyword := sideKeyword side, name, description, lines }

/-- The blocks declared so far, and the names of the shapes among them. -/
structure Declared where
  blocks : List Block := []
  shapes : List String := []

/-- Declares both sides of a shape. -/
def Declared.addShape (declared : Declared) (name : String) (description : Option String)
    (target : Schema) : Except GenerationError Declared := do
  let output ← schemaBlock name (description <|> target.description) target .output
  let input ← schemaBlock (name ++ Side.input.ending) none target .input
  .ok ⟨declared.blocks ++ [output, input], declared.shapes ++ [name]⟩

mutual

/-- Declares the shapes that a schema embeds, inner ones first. -/
def declareShapes : Schema → Declared → Except GenerationError Declared
  | ⟨_, _, _, _, _, fields⟩, declared => declareShapesOf fields declared
termination_by structural schema => schema

/-- Declares the shapes that the fields embed. -/
def declareShapesOf : List Field → Declared → Except GenerationError Declared
  | [], declared => .ok declared
  | ⟨name, .embedded target, flags, description, owner⟩ :: rest, declared =>
    if flags.internal then declareShapesOf rest declared
    else
      match Field.typeName ⟨name, .embedded target, flags, description, owner⟩ with
      | .error cause => .error (.definition cause)
      | .ok typeName =>
        if typeName ∈ declared.shapes then declareShapesOf rest declared
        else do
          let inner ← declareShapes target declared
          let outer ← inner.addShape typeName description target
          declareShapesOf rest outer
  | ⟨_, .scalar _, _, _, _⟩ :: rest, declared => declareShapesOf rest declared
  | ⟨_, .reference _, _, _, _⟩ :: rest, declared => declareShapesOf rest declared
termination_by structural fields => fields

end

/-- The block of the page that an entity is read in. -/
def resultsBlock (schema : Schema) : Block where
  keyword := .type
  name := schema.resultsName
  lines := [
    { name := "data", type := .nonNull (.list (.nonNull (.named schema.name))) },
    { name := "count", type := .nonNull (.named "Int") },
    { name := "totalCount", type := .named "Int" }]

/-- Declares an entity: the shapes it embeds, its type, its input and its page. -/
def declareEntity (declared : Declared) (schema : Schema) : Except GenerationError Declared := do
  let inner ← declareShapes schema declared
  let output ← schemaBlock schema.name schema.description schema .output
  let input ← schemaBlock schema.inputName none schema .input
  .ok { inner with blocks := inner.blocks ++ [output, input, resultsBlock schema] }

theorem declareShapes_eq (schema : Schema) (declared : Declared) :
    declareShapes schema declared = declareShapesOf schema.fields declared := by
  cases schema
  rw [declareShapes]

end EntityModel.Sdl
