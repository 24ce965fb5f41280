import EntityModel.Double
import EntityModel.Keyed

/-!
# JSON values

Values of documents, filters and messages. A whole number and a double are never equal; the
members of an object are entries under their names, in ascending order.

Results:
* `same_self`: every value is the same as itself.
-/
namespace EntityModel

/-- A JSON value. -/
inductive Json where
  | null
  | bool (value : Bool)
  | int (value : Int)
  | float (value : Double)
  | str (value : String)
  | arr (items : List Json)
  | obj (members : List (String × Json))

/-- The members of an object. -/
abbrev Members := Keyed Json

namespace Json

/-- The object with these members, in any order; of two with one name the later counts. -/
def object (members : List (String × Json)) : Json := obj (Keyed.ofList members)

/-- The array of these texts. -/
def strings (values : List String) : Json := arr (values.map str)

/-- A member that is left out when there is no value. -/
def optional (name : String) (value : Option String) : List (String × Json) :=
  match value with
  | some text => [(name, str text)]
  | none => []

/-- A member with a list of names that is left out when it is empty. -/
def nonEmpty (name : String) (values : List String) : List (String × Json) :=
  if values.isEmpty then [] else [(name, strings values)]

/-- The value is `null`. -/
def isNull : Json → Bool
  | null => true
  | _ => false

/-- The text of a string. -/
def text? : Json → Option String
  | str value => some value
  | _ => none

/-- The members of an object. -/
def members? : Json → Option Members
  | obj members => some members
  | _ => none

mutual

/-- The values are the same: of one kind, with the same content; doubles compare as numbers. -/
def same : Json → Json → Bool
  | null, null => true
  | bool a, bool b => a == b
  | int a, int b => a == b
  | float a, float b => a.sameValue b
  | str a, str b => a == b
  | arr as, arr bs => sameItems as bs
  | obj as, obj bs => sameMembers as bs
  | _, _ => false
termination_by structural a => a

/-- The items are the same, one by one. -/
def sameItems : List Json → List Json → Bool
  | [], [] => true
  | a :: as, b :: bs => a.same b && sameItems as bs
  | _, _ => false
termination_by structural as => as

/-- The members have the same names and values, one by one. -/
def sameMembers : List (String × Json) → List (String × Json) → Bool
  | [], [] => true
  | (j, a) :: as, (k, b) :: bs => j == k && a.same b && sameMembers as bs
  | _, _ => false
termination_by structural as => as

end

mutual

theorem same_self : (value : Json) → value.same value = true
  | null => rfl
  | bool _ => by simp [same]
  | int _ => by simp [same]
  | float d => by simp [same, d.sameValue_self]
  | str _ => by simp [same]
  | arr items => by rw [same, sameItems_self items]
  | obj members => by rw [same, sameMembers_self members]

theorem sameItems_self : (items : List Json) → sameItems items items = true
  | [] => rfl
  | item :: rest => by rw [sameItems, same_self item, sameItems_self rest]; rfl

theorem sameMembers_self : (members : List (String × Json)) → sameMembers members members = true
  | [] => rfl
  | (_, value) :: rest => by simp [sameMembers, same_self value, sameMembers_self rest]

end

end Json

end EntityModel
