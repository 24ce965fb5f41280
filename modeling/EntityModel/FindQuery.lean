import EntityModel.Json.Writer
import EntityModel.Text.Blank

/-!
# Find queries

Which documents of a collection to return: a filter on their top-level keys, a page of at most
`top` documents after the first `skip`, an order, and whether to load joined documents. A `top` of
zero means no limit.

Results:
* `isTextSearch_isFiltered`: a text search is a filter.
-/
namespace EntityModel

/-- Which documents to return. -/
structure FindQuery where
  top : UInt64 := 0
  skip : UInt64 := 0
  sortBy : Option String := none
  filter : Members := []
  populate : Bool := true

namespace FindQuery

/-- The filter key of a full-text search. -/
def textSearchKey : String := "$text"

/-- Adds a key to the filter. -/
def withFilter (query : FindQuery) (key : String) (value : Json) : FindQuery :=
  { query with filter := Keyed.insert key value query.filter }

/-- The query asks for a page. -/
def isPaginated (query : FindQuery) : Bool := query.top != 0 || query.skip != 0

/-- The query asks for an order. -/
def isSorted (query : FindQuery) : Bool := query.sortBy.any fun key => !Text.isBlankText key

/-- The query filters. -/
def isFiltered (query : FindQuery) : Bool := !query.filter.isEmpty

/-- The query searches text. -/
def isTextSearch (query : FindQuery) : Bool :=
  query.isFiltered && Keyed.has textSearchKey query.filter

/-- The JSON form, in which the filter travels as text and what is absent is left out. -/
def toJson (query : FindQuery) : Json :=
  .object ([("top", .int query.top.toNat), ("skip", .int query.skip.toNat)]
    ++ Json.optional "sortBy" query.sortBy
    ++ (if query.filter.isEmpty then [] else [("filterBy", .str (Json.obj query.filter).render)])
    ++ [("populate", .bool query.populate)])

theorem isTextSearch_isFiltered {query : FindQuery} (h : query.isTextSearch = true) :
    query.isFiltered = true := by
  simp only [isTextSearch, Bool.and_eq_true] at h
  exact h.1

end FindQuery

end EntityModel
