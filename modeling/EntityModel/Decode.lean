import EntityModel.Config
import EntityModel.Join
import EntityModel.Json.Record
import EntityModel.Page
import EntityModel.Request

/-!
# Reading JSON forms back

The joins, pages, requests and configurations that their JSON forms describe. Unknown fields do
not count, except in a configuration, which has none.
-/
namespace EntityModel

namespace Join

mutual

/-- The join that a value describes. -/
def ofJson? : Json → Option Join
  | .obj members => do
    let path ← (Keyed.get? "path" members).bind Json.text?
    let nested ← planMember members
    some ⟨path, nested⟩
  | .arr [.str path] => some ⟨path, none⟩
  | .arr [.str path, nested] => (planOf nested).map fun nested => ⟨path, nested⟩
  | _ => none
termination_by structural value => value

/-- The plan among the members of a join. -/
def planMember : List (String × Json) → Option (Option (List Join))
  | [] => some none
  | (name, value) :: rest => if name = "populate" then planOf value else planMember rest
termination_by structural members => members

/-- The plan that a value describes. -/
def planOf : Json → Option (Option (List Join))
  | .null => some none
  | .arr items => (joinsOf? items).map some
  | _ => none
termination_by structural value => value

/-- The joins that values describe. -/
def joinsOf? : List Json → Option (List Join)
  | [] => some []
  | item :: rest => do
    let join ← ofJson? item
    let joins ← joinsOf? rest
    some (join :: joins)
termination_by structural items => items

end

end Join

/-- The page that a value describes. -/
def Page.ofJson? (value : Json) : Option Page := do
  let fields ← value.fields? ["data", "count", "totalCount"]
  some {
    data := ← Json.field? Json.items? "data" fields
    count := ← Json.field? Json.count? "count" fields
    totalCount := ← Json.optionalField? Json.count? "totalCount" fields }

/-- The request that a value describes. -/
def Request.ofJson? (value : Json) : Option Request := do
  let fields ← value.fields? ["query", "variables"]
  some ⟨← Json.field? Json.text? "query" fields, ← Json.field? some "variables" fields⟩

/-- The layout that a value describes. -/
def Sdl.Layout.ofJson? (value : Json) : Option Sdl.Layout := do
  let fields ← value.onlyFields? ["query_type", "mutation_type", "indent", "descriptions"]
  let usual : Sdl.Layout := {}
  some {
    queryType := ← Json.fieldOr? Json.text? usual.queryType "query_type" fields
    mutationType := ← Json.fieldOr? Json.text? usual.mutationType "mutation_type" fields
    indent := ← Json.fieldOr? Json.text? usual.indent "indent" fields
    descriptions := ← Json.fieldOr? Json.bool? usual.descriptions "descriptions" fields }

/-- The configuration that a value describes, unchecked. -/
def Config.ofJson? (value : Json) : Option Config := do
  let fields ← value.onlyFields? ["sdl"]
  some { sdl := ← Json.fieldOr? Sdl.Layout.ofJson? {} "sdl" fields }

end EntityModel
