import EntityModel.Service
import EntityModel.Text.Quoted

/-!
# The dispatch table

Binds the five operations of every entity of a catalog, and finds them by entity and operation or
by the name that the operation has in GraphQL. Of two operations with one name the later bound
counts.

Results:
* `size_ofCatalog`: a table has five handlers for each entity.
-/
namespace EntityModel

/-- The operations that are bound, and their names. -/
structure Dispatch where
  catalog : Catalog
  handlers : List (String × Operation)
  operations : Keyed (String × Operation)

namespace Dispatch

/-- The table of a catalog. -/
def ofCatalog (catalog : Catalog) : Dispatch where
  catalog := catalog
  handlers := catalog.entities.flatMap fun schema =>
    Operation.all.map fun operation => (schema.name, operation)
  operations := Keyed.ofList (catalog.entities.flatMap fun schema =>
    Operation.all.map fun operation => (operation.nameOn schema, (schema.name, operation)))

/-- The operation is bound for exactly this name of an entity. -/
def binds (table : Dispatch) (schema : String) (operation : Operation) : Bool :=
  table.handlers.contains (schema, operation)

/-- Calls an operation on the entity with exactly this name. -/
def call (table : Dispatch) (schema : String) (operation : Operation) (args : Args) (store : Store) :
    Service.Outcome :=
  if table.binds schema operation then Service.run table.catalog operation schema args store
  else (.error (.resolve (.unknownOperation (operation.verb ++ " on " ++ schema))), store)

/-- Calls an operation by its name. -/
def resolve (table : Dispatch) (name : String) (args : Args) (store : Store) : Service.Outcome :=
  match Keyed.get? name table.operations with
  | some (schema, operation) => table.call schema operation args store
  | none => (.error (.resolve (.unknownOperation name)), store)

/-- The names of the operations, in order. -/
def names (table : Dispatch) : List String := Keyed.keys table.operations

/-- The number of handlers. -/
def size (table : Dispatch) : Nat := table.handlers.length

/-- The table for people to read. -/
def summary (table : Dispatch) : String :=
  "ResolverMap \x7b operations: [" ++ ", ".intercalate (table.names.map Text.quoted) ++ "] \x7d"

theorem size_ofCatalog (catalog : Catalog) :
    (ofCatalog catalog).size = 5 * catalog.entities.length := by
  simp only [size, ofCatalog]
  induction catalog.entities with
  | nil => rfl
  | cons schema rest ih => simp_all [Operation.all, Nat.mul_add]

end Dispatch

end EntityModel
