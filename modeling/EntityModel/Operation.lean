import EntityModel.Catalog.Claim
import EntityModel.TypeRef

/-!
# Operations

The five things that can be done with documents of an entity. An operation has a name in GraphQL,
made of its verb and the entity's name, or its plural name where many documents are read, and
takes one argument.

Results:
* `mem_all`: there are no other operations.
* `ofVerb?_verb`: an operation is known by its verb.
-/
namespace EntityModel

/-- What can be done with documents of an entity. -/
inductive Operation where
  | insert
  | update
  | getOne
  | getMany
  | delete
deriving DecidableEq, Repr

/-- A named and typed argument. -/
structure Argument where
  name : String
  type : TypeRef
deriving DecidableEq, Repr

namespace Operation

/-- All operations, in the order in which they are bound. -/
def all : List Operation := [insert, update, getOne, getMany, delete]

/-- The verb that starts the name. -/
def verb : Operation → String
  | insert => "insert"
  | update => "update"
  | getOne => "get"
  | getMany => "find"
  | delete => "delete"

/-- The operation with this verb. -/
def ofVerb? (verb : String) : Option Operation := all.find? (·.verb == verb)

/-- The name of the operation on an entity. -/
def nameOn (operation : Operation) (schema : Schema) : String :=
  match operation with
  | getMany => operation.verb ++ schema.pluralName
  | _ => operation.verb ++ schema.name

/-- The operation only reads. -/
def isQuery : Operation → Bool
  | getOne => true
  | getMany => true
  | _ => false

/-- The one argument of the operation on an entity. -/
def argumentOn (operation : Operation) (schema : Schema) : Argument :=
  match operation with
  | insert => ⟨"doc", .named schema.inputName⟩
  | update => ⟨"doc", .named schema.inputName⟩
  | getOne => ⟨"id", .nonNull (.named "String")⟩
  | getMany => ⟨"q", .named "QueryModifier"⟩
  | delete => ⟨"id", .nonNull (.named "String")⟩

/-- What the operation on an entity answers with: a page of documents, or an id. -/
def resultOn (operation : Operation) (schema : Schema) : TypeRef :=
  if operation.isQuery then .named schema.resultsName else .nonNull (.named "ID")

theorem mem_all (operation : Operation) : operation ∈ all := by cases operation <;> decide

theorem ofVerb?_verb (operation : Operation) : ofVerb? operation.verb = some operation := by
  cases operation <;> decide

end Operation

end EntityModel
