import EntityModel.FindQuery
import EntityModel.Operation
import EntityModel.Selection

/-!
# Requests

What a client sends: a query text that invokes one operation on an entity through a variable of
the same name as the operation's argument, and the value of that variable.

Results:
* `bindings_ofInvocation`: a request carries exactly one variable.
* `delete_eq_ok_iff`: a request to delete sends the id of the document, if it has one.
-/
namespace EntityModel

/-- The invocation of one operation, with what is read of the answer. -/
structure Invocation where
  isQuery : Bool
  operation : String
  argument : Argument
  /-- The fields read of each document; an operation that answers with an id reads none. -/
  selection : Option (List Selection)

/-- A query text and the values of its variables. -/
structure Request where
  query : String
  bindings : Json

namespace Invocation

/-- An operation on an entity, without the excluded paths in what it reads. -/
def ofOperation (operation : Operation) (schema : Schema) (excluded : List String) : Invocation where
  isQuery := operation.isQuery
  operation := operation.nameOn schema
  argument := operation.argumentOn schema
  selection := if operation.isQuery then some (schema.selection excluded) else none

/-- The text of what is read of a page. -/
def pageText (selection : List Selection) : String :=
  "\x7bdata \x7b" ++ Selection.listText selection ++ "\x7d\ncount\ntotalCount\x7d"

/-- The text of an invocation. -/
def text (invocation : Invocation) : String :=
  let keyword := if invocation.isQuery then "query" else "mutation"
  let name := invocation.argument.name
  let page := match invocation.selection with
    | some selection => pageText selection
    | none => ""
  keyword ++ "($" ++ name ++ ":" ++ invocation.argument.type.text ++ ")\x7b" ++ invocation.operation
    ++ "(" ++ name ++ ": $" ++ name ++ ")" ++ page ++ "\x7d"

end Invocation

namespace Request

/-- The request that gives an invocation its argument. -/
def ofInvocation (invocation : Invocation) (value : Json) : Request :=
  ⟨invocation.text, .obj [(invocation.argument.name, value)]⟩

/-- Reads the document with this id. -/
def getOne (schema : Schema) (id : String) (excluded : List String) : Request :=
  ofInvocation (.ofOperation .getOne schema excluded) (.str id)

/-- Reads the documents that a query finds. -/
def getMany (schema : Schema) (query : FindQuery) (excluded : List String) : Request :=
  ofInvocation (.ofOperation .getMany schema excluded) query.toJson

/-- Inserts a document. -/
def insert (schema : Schema) (document : Json) : Request :=
  ofInvocation (.ofOperation .insert schema []) document

/-- Updates a document. -/
def update (schema : Schema) (document : Json) : Request :=
  ofInvocation (.ofOperation .update schema []) document

/-- The text that identifies a document: a string as it is, or a number in its JSON spelling. -/
def idText? : Json → Option String
  | .str id => some id
  | .int n => some (Json.int n).render
  | .float d => some (Json.float d).render
  | _ => none

/-- The id of a document, under the key that the schema identifies documents by. -/
def idOf? (schema : Schema) : Json → Option String
  | .obj members => (Keyed.get? schema.idKey members).bind idText?
  | _ => none

/-- Deletes a document; only its id is sent. -/
def delete (schema : Schema) (document : Json) : Except GenerationError Request :=
  match idOf? schema document with
  | some id => .ok (ofInvocation (.ofOperation .delete schema []) (.str id))
  | none => .error (.missingId schema.name schema.idKey)

/-- The JSON form of a request. -/
def toJson (request : Request) : Json :=
  .object [("query", .str request.query), ("variables", request.bindings)]

theorem bindings_ofInvocation (invocation : Invocation) (value : Json) :
    (ofInvocation invocation value).bindings = .obj [(invocation.argument.name, value)] := rfl

theorem delete_eq_ok_iff {schema : Schema} {document : Json} {request : Request} :
    delete schema document = .ok request ↔ ∃ id, idOf? schema document = some id ∧
      request = ofInvocation (.ofOperation .delete schema []) (.str id) := by
  unfold delete
  cases idOf? schema document <;> simp [eq_comm]

end Request

end EntityModel
