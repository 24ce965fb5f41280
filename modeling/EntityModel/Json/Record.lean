import EntityModel.Json

/-!
# Records in JSON

A record with named fields stands as an object, or as the list of its fields' values in order, in
which the last ones may be missing.

Results:
* `count?_int`: a count is read back from its number.
-/
namespace EntityModel.Json

/-- The fields of a record with these names. -/
def fields? (names : List String) : Json → Option Members
  | obj members => some members
  | arr items => if items.length ≤ names.length then some (names.zip items) else none
  | _ => none

/-- The fields of a record that has no others. -/
def onlyFields? (names : List String) (value : Json) : Option Members := do
  let fields ← value.fields? names
  if fields.all fun field => names.contains field.1 then some fields else none

/-- The value is a whole number below `2 ^ 64`. -/
def count? : Json → Option UInt64
  | int n => if 0 ≤ n ∧ n < UInt64.size then some n.toNat.toUInt64 else none
  | _ => none

/-- The value is a switch. -/
def bool? : Json → Option Bool
  | bool value => some value
  | _ => none

/-- The items of an array. -/
def items? : Json → Option (List Json)
  | arr items => some items
  | _ => none

/-- A field that must be there. -/
def field? {α : Type} (read : Json → Option α) (name : String) (fields : Members) : Option α :=
  (Keyed.get? name fields).bind read

/-- A field that may be missing or `null`. -/
def optionalField? {α : Type} (read : Json → Option α) (name : String) (fields : Members) :
    Option (Option α) :=
  match Keyed.get? name fields with
  | none => some none
  | some null => some none
  | some value => (read value).map some

/-- A field that may be missing and then has a default. -/
def fieldOr? {α : Type} (read : Json → Option α) (fallback : α) (name : String) (fields : Members) :
    Option α :=
  match Keyed.get? name fields with
  | none => some fallback
  | some value => read value

theorem count?_int (count : UInt64) : (int count.toNat).count? = some count := by
  have below : count.toNat < UInt64.size := count.toNat_lt_size
  simp only [UInt64.size] at below
  simp [count?]
  omega

end EntityModel.Json
