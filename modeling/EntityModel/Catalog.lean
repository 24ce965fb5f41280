import EntityModel.Catalog.Link
import EntityModel.Schema.Check

/-!
# Catalogs

An ordered set of schemas that belong together: names differ even when case is ignored, no type
name is claimed twice, and every reference leads to an instance of the set. A catalog exists only
for schemas without such an issue, so everything generated from one can rely on it.

Results:
* `ofSchemas_schemas`: a catalog holds the schemas it was made of, in order.
* `mem_of_find`: what a catalog finds is one of its schemas.
-/
namespace EntityModel

/-- Every issue of a set of schemas: names at the root, references under their schema. -/
def catalogIssues (schemas : List Schema) : IssueTree :=
  schemas.foldl (fun tree schema => tree.addAllFor schema.name (schema.linkMessages schemas))
    ⟨namingMessages schemas, []⟩

/-- Schemas that belong together, in order of registration. -/
structure Catalog where
  schemas : List Schema
  sound : (catalogIssues schemas).isEmpty = true

/-- Why a catalog has no answer. -/
inductive CatalogError where
  | unknownSchema (name : String)
  | invalid (issues : IssueTree)

/-- The cause in words. -/
def CatalogError.message : CatalogError → String
  | .unknownSchema name => s!"schema '{name}' not found"
  | .invalid issues => s!"repository validation failed: {issues.text}"

namespace Catalog

/-- The catalog of schemas, unless they have an issue. -/
def ofSchemas (schemas : List Schema) : Except CatalogError Catalog :=
  if sound : (catalogIssues schemas).isEmpty = true then .ok ⟨schemas, sound⟩
  else .error (.invalid (catalogIssues schemas))

/-- The entities, in order of registration. -/
def entities (catalog : Catalog) : List Schema := catalog.schemas.filter (·.isEntity)

/-- The schema with this name, whatever its case. -/
def find (catalog : Catalog) (name : String) : Except CatalogError Schema :=
  let key := lookupKey name
  match catalog.schemas.find? fun schema => lookupKey schema.name == key with
  | some schema => .ok schema
  | none => .error (.unknownSchema name)

theorem ofSchemas_schemas {schemas : List Schema} {catalog : Catalog}
    (h : ofSchemas schemas = .ok catalog) : catalog.schemas = schemas := by
  unfold ofSchemas at h
  split at h
  · cases h; rfl
  · cases h

theorem mem_of_find {catalog : Catalog} {name : String} {schema : Schema}
    (h : catalog.find name = .ok schema) : schema ∈ catalog.schemas := by
  unfold find at h
  simp only at h
  split at h
  · next found => cases h; exact List.mem_of_find?_eq_some found
  · cases h

end Catalog

end EntityModel
