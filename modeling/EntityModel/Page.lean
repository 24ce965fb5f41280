import EntityModel.Json

/-!
# Pages

The answer to a find query: the documents of the page, how many they are, and how many documents
match in all, if known.
-/
namespace EntityModel

/-- The documents of a page. -/
structure Page where
  data : List Json
  count : UInt64
  totalCount : Option UInt64 := none

/-- The JSON form of a page, without the total if it is not known. -/
def Page.toJson (page : Page) : Json :=
  .object ([("data", .arr page.data), ("count", .int page.count.toNat)]
    ++ (page.totalCount.map fun total => ("totalCount", Json.int total.toNat)).toList)

end EntityModel
