import EntityModel.FindQuery
import EntityModel.Join
import EntityModel.Page

/-!
# The document store

Documents in memory, filed under the name of their schema and their id. Ids are `id1`, `id2`, …
from one counter for all schemas. The store remembers the queries that it saw. A poisoned store
refuses whatever reaches its documents.

Results:
* `add_issued`: adding a document uses up an id, whether or not it succeeds.
* `find_collections`: finding documents changes none.
-/
namespace EntityModel

/-- Why an operation on documents fails. -/
inductive ResolveError where
  | invalidArgument (argument expected : String)
  | missingArgument (operation argument : String)
  | notFound (schema id : String)
  | store (reason : String)
  | unknownOperation (operation : String)
deriving DecidableEq, Repr

/-- The cause in words. -/
def ResolveError.message : ResolveError → String
  | .invalidArgument argument expected => s!"argument '{argument}' must be {expected}"
  | .missingArgument operation argument => s!"{operation} requires argument '{argument}'"
  | .notFound schema id => s!"{schema} '{id}' not found"
  | .store reason => s!"store failure: {reason}"
  | .unknownOperation operation => s!"unknown operation '{operation}'"

/-- A query that the store saw. -/
structure FindCall where
  schema : String
  query : FindQuery
  joins : List Join

/-- Documents in memory. -/
structure Store where
  collections : Keyed (Keyed Members) := []
  finds : List FindCall := []
  issued : Nat := 0
  poisoned : Bool := false

namespace Store

/-- The key under which a document carries its id. -/
def idKey : String := "_id"

/-- What a poisoned store answers. -/
def poisonedError : ResolveError := .store "memory store lock poisoned"

/-- Poisons the store. -/
def poison (store : Store) : Store := { store with poisoned := true }

/-- The documents of a schema under their ids. -/
def collection (store : Store) (schema : String) : Keyed Members :=
  (Keyed.get? schema store.collections).getD []

/-- A document has every key of the filter with the same value. -/
def isMatch (filter : Members) (document : Members) : Bool :=
  filter.all fun entry => (Keyed.get? entry.1 document).any fun value => value.same entry.2

/-- The documents of a schema that a filter lets through, in order of id. -/
def matching (store : Store) (schema : String) (filter : Members) : List Members :=
  ((store.collection schema).map Prod.snd).filter (isMatch filter)

/-- The page that a query cuts out of the matching documents. -/
def pageOf (query : FindQuery) (documents : List Members) : Page :=
  let rest := documents.drop query.skip.toNat
  let page := if query.top = 0 then rest else rest.take query.top.toNat
  { data := page.map Json.obj, count := page.length.toUInt64,
    totalCount := some documents.length.toUInt64 }

/-- Finds documents. -/
def find (store : Store) (schema : String) (query : FindQuery) (joins : List Join) :
    Except ResolveError Page × Store :=
  let store := { store with finds := store.finds ++ [⟨schema, query, joins⟩] }
  if store.poisoned then (.error poisonedError, store)
  else (.ok (pageOf query (store.matching schema query.filter)), store)

/-- The text of the id with this number. -/
def idText (n : Nat) : String := String.ofList ('i' :: 'd' :: Nat.toDigits 10 n)

/-- Replaces the documents of a schema. -/
def setCollection (store : Store) (schema : String) (documents : Keyed Members) : Store :=
  { store with collections := Keyed.insert schema documents store.collections }

/-- Adds a document under a new id. -/
def add (store : Store) (schema : String) (document : Members) : Except ResolveError String × Store :=
  let id := idText (store.issued + 1)
  let store := { store with issued := store.issued + 1 }
  if store.poisoned then (.error poisonedError, store)
  else
    let document := Keyed.insert idKey (.str id) document
    (.ok id, store.setCollection schema (Keyed.insert id document (store.collection schema)))

/-- Lays a document over the one with its id. -/
def update (store : Store) (schema : String) (document : Members) :
    Except ResolveError String × Store :=
  match (Keyed.get? idKey document).bind Json.text? with
  | none => (.error (.invalidArgument "doc._id" "a string"), store)
  | some id =>
    if store.poisoned then (.error poisonedError, store)
    else
      match Keyed.get? id (store.collection schema) with
      | none => (.error (.notFound schema id), store)
      | some held =>
        (.ok id, store.setCollection schema
          (Keyed.insert id (Keyed.overlay held document) (store.collection schema)))

/-- Deletes the document with an id. -/
def delete (store : Store) (schema id : String) : Except ResolveError String × Store :=
  if store.poisoned then (.error poisonedError, store)
  else if Keyed.has id (store.collection schema) then
    (.ok id, store.setCollection schema (Keyed.erase id (store.collection schema)))
  else (.error (.notFound schema id), store)

theorem add_issued (store : Store) (schema : String) (document : Members) :
    (store.add schema document).2.issued = store.issued + 1 := by
  unfold add
  simp only
  split <;> simp [setCollection]

theorem find_collections (store : Store) (schema : String) (query : FindQuery) (joins : List Join) :
    (store.find schema query joins).2.collections = store.collections := by
  unfold find
  simp only
  split <;> rfl

end Store

end EntityModel
