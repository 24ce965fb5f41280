import EntityModel.Operation
import EntityModel.Sdl.Layout

/-!
# Blocks

A document of the schema language is a list of blocks: types, inputs and the schema block. A block
has a name, but for the schema block, and one line per field.

Results:
* `names_append`: the names of two documents after each other.
-/
namespace EntityModel.Sdl

/-- The keyword of a block. -/
inductive Keyword where
  | type
  | input
  | schema
deriving DecidableEq, Repr

/-- The spelling of a keyword. -/
def Keyword.text : Keyword → String
  | type => "type"
  | input => "input"
  | schema => "schema"

/-- A field of a block, with its argument if it takes one. -/
structure Line where
  name : String
  argument : Option Argument := none
  type : TypeRef
deriving DecidableEq, Repr

/-- A block; the schema block has the empty name. -/
structure Block where
  keyword : Keyword
  name : String
  description : Option String := none
  lines : List Line
deriving DecidableEq, Repr

/-- The spelling of a line. -/
def Line.text (line : Line) : String :=
  let argument := match line.argument with
    | some argument => "(" ++ argument.name ++ ": " ++ argument.type.text ++ ")"
    | none => ""
  line.name ++ argument ++ ": " ++ line.type.text

/-- The line above a block that describes it. -/
def Block.descriptionText (layout : Layout) (block : Block) : String :=
  match block.description with
  | some description =>
    if layout.descriptions then "\"\"\"" ++ description ++ "\"\"\"\n" else ""
  | none => ""

/-- The first line of a block. -/
def Block.headText (block : Block) : String :=
  if block.name = "" then block.keyword.text ++ " \x7b\n"
  else block.keyword.text ++ " " ++ block.name ++ " \x7b\n"

/-- The spelling of a block. -/
def Block.text (layout : Layout) (block : Block) : String :=
  block.descriptionText layout ++ block.headText
    ++ String.join (block.lines.map fun line => layout.indent ++ line.text ++ "\n") ++ "\x7d"

/-- The spelling of blocks, with an empty line between them. -/
def render (layout : Layout) (blocks : List Block) : String :=
  "\n\n".intercalate (blocks.map (Block.text layout)) ++ "\n"

/-- The names of the types and inputs. -/
def names (blocks : List Block) : List String :=
  (blocks.filter (·.keyword != .schema)).map (·.name)

theorem names_append (as bs : List Block) : names (as ++ bs) = names as ++ names bs := by
  simp [names]

end EntityModel.Sdl
