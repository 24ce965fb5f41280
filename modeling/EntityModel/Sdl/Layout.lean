/-!
# Layout of a document

The names of the two root types and how blocks are written.
-/
namespace EntityModel.Sdl

/-- How a document is laid out. -/
structure Layout where
  queryType : String := "Queries"
  mutationType : String := "Mutations"
  indent : String := "  "
  /-- Descriptions stand above their types. -/
  descriptions : Bool := false
deriving DecidableEq, Repr

end EntityModel.Sdl
