import EntityModel.FindQuery
import EntityModel.FindQuery.Count
import EntityModel.IssueTree
import EntityModel.Json.Reader

/-!
# Reading find queries

A query from an untyped payload. Every key is read by itself: a missing key and `null` give the
default, and every key with an unfit value is reported.

Results:
* `ofJson_empty`: the empty object is the default query.
-/
namespace EntityModel.FindQuery

/-- Why a payload is no query. -/
inductive Error where
  | invalid (issues : IssueTree)

/-- The cause in words. -/
def Error.message : Error → String
  | .invalid issues => s!"query modifier validation failed: {issues.text}"

/-- The value under a key, `null` if there is none. -/
def valueAt (members : Members) (key : String) : Json := (Keyed.get? key members).getD .null

/-- A count. -/
def readCount (value : Json) : Except String UInt64 := (Count.ofJson value).mapError Count.Fault.message

/-- A key to sort by; a blank one is none. -/
def readSort : Json → Except String (Option String)
  | .null => .ok none
  | .str key => .ok (if Text.isBlankText key then none else some key)
  | _ => .error "must be a string"

/-- A filter, as an object or as the text of one; a blank text is the empty filter. -/
def readFilter : Json → Except String Members
  | .null => .ok []
  | .obj members => .ok members
  | .str text =>
    if Text.isBlankText text then .ok []
    else
      match Json.parse? text with
      | some (.obj members) => .ok members
      | _ => .error "must be an object"
  | _ => .error "must be an object"

/-- A switch that is on by default. -/
def readSwitch : Json → Except String Bool
  | .null => .ok true
  | .bool value => .ok value
  | _ => .error "must be a boolean"

/-- Files the message of a reading that failed. -/
def report {α : Type} (key : String) (reading : Except String α) (issues : IssueTree) : IssueTree :=
  match reading with
  | .ok _ => issues
  | .error message => issues.addFor key message

/-- The value of a reading, or the default of one that failed. -/
def valueOr {α : Type} (fallback : α) : Except String α → α
  | .ok value => value
  | .error _ => fallback

/-- The query that the members of an object describe. -/
def ofMembers (members : Members) : Except Error FindQuery :=
  let top := readCount (valueAt members "top")
  let skip := readCount (valueAt members "skip")
  let sortBy := readSort (valueAt members "sortBy")
  let filter := readFilter (valueAt members "filterBy")
  let populate := readSwitch (valueAt members "populate")
  let issues := report "populate" populate (report "filterBy" filter (report "sortBy" sortBy
    (report "skip" skip (report "top" top IssueTree.empty))))
  if issues.isEmpty then
    .ok { top := valueOr 0 top, skip := valueOr 0 skip, sortBy := valueOr none sortBy,
          filter := valueOr [] filter, populate := valueOr true populate }
  else .error (.invalid issues)

/-- The query that a value describes. -/
def ofJson : Json → Except Error FindQuery
  | .obj members => ofMembers members
  | _ => .error (.invalid (IssueTree.empty.add "query modifier must be an object"))

theorem ofJson_empty : ofJson (.obj []) = .ok {} := rfl

end EntityModel.FindQuery
