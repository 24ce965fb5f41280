import EntityModel.IssueTree
import EntityModel.Json

/-!
# Issues as JSON

The JSON form of an issue tree; empty lists of messages and of children are left out.

Results:
* `toJson_empty`: a tree without issues is the empty object.
-/
namespace EntityModel.IssueTree

mutual

/-- The form of a tree. -/
def toJson : IssueTree → Json
  | ⟨messages, children⟩ =>
    .object (Json.nonEmpty "messages" messages
      ++ if children.isEmpty then [] else [("children", .object (formsOf children))])
termination_by structural tree => tree

/-- The forms of trees under their keys. -/
def formsOf : List (String × IssueTree) → List (String × Json)
  | [] => []
  | (key, tree) :: rest => (key, tree.toJson) :: formsOf rest
termination_by structural trees => trees

end

theorem toJson_empty : empty.toJson = .obj [] := rfl

end EntityModel.IssueTree
