import EntityModel.Json
import EntityModel.Schema

/-!
# Joins

Which documents to load along with a document. A join follows one reference, found under a dotted
path of embedded fields, and carries the joins of the document that it leads to. A plan is the
list of joins of a schema.

An embedded field is a scope: the paths of what is found in its shape start with its name, and with
the scope of the field itself in front of it. The plan of a document that a join leads to is in no
scope.

Results:
* `joins_eq`: the plan of a schema is made from its fields, in no scope.
* `joinsOf_append`: the joins of a list of fields come field by field.
* `depth_pos`: a join has a depth of at least one.
-/
namespace EntityModel

/-- A reference to follow, with the joins of the document it leads to. -/
structure Join where
  path : String
  nested : Option (List Join)

namespace Join

mutual

/-- The number of joins that follow each other, this one included. -/
def depth : Join → Nat
  | ⟨_, none⟩ => 1
  | ⟨_, some joins⟩ => 1 + depthOf joins
termination_by structural join => join

/-- The greatest depth in a plan. -/
def depthOf : List Join → Nat
  | [] => 0
  | join :: rest => max join.depth (depthOf rest)
termination_by structural joins => joins

end

mutual

/-- The JSON form of a join. -/
def toJson : Join → Json
  | ⟨path, none⟩ => .object [("path", .str path)]
  | ⟨path, some joins⟩ => .object [("path", .str path), ("populate", .arr (formsOf joins))]
termination_by structural join => join

/-- The forms of a plan. -/
def formsOf : List Join → List Json
  | [] => []
  | join :: rest => join.toJson :: formsOf rest
termination_by structural joins => joins

end

/-- The JSON form of a plan. -/
def planToJson (joins : List Join) : Json := .arr (formsOf joins)

/-- The path in a scope, which is the name of an embedded field if there is any. -/
def qualify (scope : Option String) (path : String) : String :=
  match scope with
  | some name => name ++ "." ++ path
  | none => path

/-- The join seen from a scope. -/
def within (scope : Option String) (join : Join) : Join :=
  { join with path := qualify scope join.path }

/-- The join of a reference with the plan of its target; an empty plan is left out. -/
def ofReference (path : String) (nested : List Join) : Join :=
  ⟨path, if nested.isEmpty then none else some nested⟩

theorem depth_pos (join : Join) : 1 ≤ join.depth := by
  obtain ⟨path, nested⟩ := join
  cases nested <;> simp [depth]

end Join

namespace Schema

mutual

/-- The joins of the fields of a schema, in depth-first order, in a scope. -/
def joinsIn : Schema → Option String → List Join
  | ⟨_, _, _, _, _, fields⟩, scope => joinsOf fields scope
termination_by structural schema => schema

/-- The joins of fields in a scope. -/
def joinsOf : List Field → Option String → List Join
  | [], _ => []
  | ⟨name, .reference target, _, _, _⟩ :: rest, scope =>
    .ofReference (Join.qualify scope name) (target.joinsIn none) :: joinsOf rest scope
  | ⟨name, .embedded target, _, _, _⟩ :: rest, scope =>
    (target.joinsIn (some name)).map (Join.within scope) ++ joinsOf rest scope
  | ⟨_, .scalar _, _, _, _⟩ :: rest, scope => joinsOf rest scope
termination_by structural fields => fields

end

/-- The joins of fields that stand under a parent: an embedded parent is their scope. -/
def joinsUnder (fields : List Field) (parent : Option Field) : List Join :=
  joinsOf fields ((parent.filter (·.isEmbedded)).map (·.name))

/-- The plan of a schema: a join for each reference, in depth-first order. -/
def joins (schema : Schema) : List Join := joinsUnder schema.fields none

theorem joinsIn_eq (schema : Schema) (scope : Option String) :
    schema.joinsIn scope = joinsOf schema.fields scope := by
  cases schema
  rw [joinsIn]

theorem joins_eq (schema : Schema) : schema.joins = joinsOf schema.fields none :=
  rfl

theorem joinsOf_append (as bs : List Field) (scope : Option String) :
    joinsOf (as ++ bs) scope = joinsOf as scope ++ joinsOf bs scope := by
  induction as with
  | nil => rfl
  | cons a rest ih =>
    obtain ⟨name, type, flags, description, owner⟩ := a
    cases type <;> simp [joinsOf, ih]

end Schema

end EntityModel
