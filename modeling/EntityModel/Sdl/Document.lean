import EntityModel.Catalog
import EntityModel.Sdl.Shape

/-!
# The document of a catalog

The input that queries take, the blocks of each entity, the two root types with one field per
operation, and the schema block that names the root types.

Results:
* `rootLines_length`: the root types have a line per entity and operation.
-/
namespace EntityModel.Sdl

/-- The input that modifies a query. -/
def queryModifierBlock : Block where
  keyword := .input
  name := "QueryModifier"
  lines := [
    { name := "top", type := .named "Int" },
    { name := "skip", type := .named "Int" },
    { name := "sortBy", type := .named "String" },
    { name := "filterBy", type := .named "String" },
    { name := "populate", type := .named "Boolean" }]

/-- The root field of an operation on an entity. -/
def rootLine (schema : Schema) (operation : Operation) : Line where
  name := operation.nameOn schema
  argument := some (operation.argumentOn schema)
  type := operation.resultOn schema

/-- The root fields of some operations on every entity. -/
def rootLines (entities : List Schema) (operations : List Operation) : List Line :=
  entities.flatMap fun schema => operations.map (rootLine schema)

/-- The root type of the operations that only read. -/
def queryBlock (layout : Layout) (entities : List Schema) : Block where
  keyword := .type
  name := layout.queryType
  lines := rootLines entities [.getOne, .getMany]

/-- The root type of the other operations. -/
def mutationBlock (layout : Layout) (entities : List Schema) : Block where
  keyword := .type
  name := layout.mutationType
  lines := rootLines entities [.insert, .update, .delete]

/-- The block that names the root types. -/
def rootsBlock (layout : Layout) : Block where
  keyword := .schema
  name := ""
  lines := [
    { name := "query", type := .named layout.queryType },
    { name := "mutation", type := .named layout.mutationType }]

/-- The blocks of the entities. -/
def entityBlocks (entities : List Schema) : Except GenerationError (List Block) :=
  (entities.foldlM declareEntity {}).map (·.blocks)

/-- The document of a catalog, block by block. -/
def document (catalog : Catalog) (layout : Layout) : Except GenerationError (List Block) :=
  (entityBlocks catalog.entities).map fun blocks =>
    queryModifierBlock :: (blocks
      ++ [queryBlock layout catalog.entities, mutationBlock layout catalog.entities,
        rootsBlock layout])

/-- The text of the document of a catalog. -/
def text (catalog : Catalog) (layout : Layout) : Except GenerationError String :=
  (document catalog layout).map (render layout)

theorem rootLines_length (entities : List Schema) (operations : List Operation) :
    (rootLines entities operations).length = entities.length * operations.length := by
  induction entities with
  | nil => simp [rootLines]
  | cons schema rest ih =>
    simp only [rootLines, List.flatMap_cons, List.length_append, List.length_map,
      List.length_cons] at ih ⊢
    rw [ih, Nat.succ_mul, Nat.add_comm]

end EntityModel.Sdl
