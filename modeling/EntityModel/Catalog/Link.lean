import EntityModel.Catalog.Naming

/-!
# References across schemas

Every reference that a schema holds, itself or inside the shapes it embeds, must lead to a
registered instance. Internal references count too; the targets of references are not entered.

Results:
* `links_eq`: a schema has the ones of its fields.
* `linksOf_append`: the links of a list of fields come field by field.
-/
namespace EntityModel

/-- A reference at the end of a chain of embedded fields. -/
structure Link where
  path : List String
  target : Schema

/-- The link seen from one field further out. -/
def Link.under (name : String) (link : Link) : Link := { link with path := name :: link.path }

/-- The path in words. -/
def Link.dotted (link : Link) : String := ".".intercalate link.path

namespace Schema

mutual

/-- The references of a schema, in depth-first order. -/
def links : Schema → List Link
  | ⟨_, _, _, _, _, fields⟩ => linksOf fields
termination_by structural schema => schema

/-- The references of fields. -/
def linksOf : List Field → List Link
  | [] => []
  | ⟨name, .reference target, _, _, _⟩ :: rest => ⟨[name], target⟩ :: linksOf rest
  | ⟨name, .embedded target, _, _, _⟩ :: rest => target.links.map (Link.under name) ++ linksOf rest
  | ⟨_, .scalar _, _, _, _⟩ :: rest => linksOf rest
termination_by structural fields => fields

end

theorem links_eq (schema : Schema) : schema.links = linksOf schema.fields := by
  cases schema
  rw [links]

theorem linksOf_append (as bs : List Field) : linksOf (as ++ bs) = linksOf as ++ linksOf bs := by
  induction as with
  | nil => rfl
  | cons a rest ih =>
    obtain ⟨name, type, flags, description, owner⟩ := a
    cases type <;> simp [linksOf, ih]

end Schema

/-- The schema that a name stands for; of two with one name the later counts. -/
def registeredAs? (schemas : List Schema) (name : String) : Option Schema :=
  let key := lookupKey name
  schemas.reverse.find? fun other => lookupKey other.name == key

/-- The message about a reference that leads to no registered instance. -/
def Link.messages (schemas : List Schema) (link : Link) : List String :=
  match registeredAs? schemas link.target.name with
  | some found =>
    if found = link.target then []
    else [s!"field '{link.dotted}' references a different instance of schema "
      ++ s!"'{link.target.name}' than the registered one"]
  | none => [s!"field '{link.dotted}' references unregistered schema '{link.target.name}'"]

/-- Every message about the references of a schema. -/
def Schema.linkMessages (schemas : List Schema) (schema : Schema) : List String :=
  schema.links.flatMap (Link.messages schemas)

end EntityModel
