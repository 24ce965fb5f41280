import EntityModel.Schema

/-!
# Selections

What a client reads of a document: every field that is not internal, with the fields of its target
in braces where it has one. Excluding a dotted path leaves out the field there with all that is
under it, and braces without fields are left out too.

Results:
* `textsOf_eq_map`: every selection has its own text.
* `selectionAt_eq`, `selectionOf_append`: what is read of a schema is read of its fields, field by
  field.
* `selectionOf_cons_cases`: what is read of one field.
-/
namespace EntityModel

/-- A field to read, or one with fields of its target to read. -/
inductive Selection where
  | leaf (name : String)
  | nested (name : String) (children : List Selection)

namespace Selection

/-- The name of the field. -/
def name : Selection → String
  | leaf name => name
  | nested name _ => name

mutual

/-- The text of a selection. -/
def text : Selection → String
  | leaf name => name
  | nested name children => name ++ " \x7b" ++ "\n".intercalate (textsOf children) ++ "\x7d"
termination_by structural selection => selection

/-- The texts of selections. -/
def textsOf : List Selection → List String
  | [] => []
  | selection :: rest => selection.text :: textsOf rest
termination_by structural selections => selections

end

/-- The text of a list of selections, one in a line. -/
def listText (selections : List Selection) : String := "\n".intercalate (textsOf selections)

theorem textsOf_eq_map (selections : List Selection) : textsOf selections = selections.map text := by
  induction selections with
  | nil => rfl
  | cons selection rest ih => simp [textsOf, ih]

end Selection

/-- The dotted path of a field below a path, or at the root. -/
def fieldPath (above : Option String) (name : String) : String :=
  match above with
  | some path => path ++ "." ++ name
  | none => name

namespace Schema

mutual

/-- What a client reads of a document of the schema at a path. -/
def selectionAt (excluded : List String) : Schema → Option String → List Selection
  | ⟨_, _, _, _, _, fields⟩, above => selectionOf excluded fields above
termination_by structural schema => schema

/-- What a client reads of fields at a path. -/
def selectionOf (excluded : List String) : List Field → Option String → List Selection
  | [], _ => []
  | ⟨name, type, flags, _, _⟩ :: rest, above =>
    (if flags.internal || fieldPath above name ∈ excluded then []
      else selectionOfType excluded type name (fieldPath above name))
    ++ selectionOf excluded rest above
termination_by structural fields => fields

/-- What a client reads of a field at `path`. -/
def selectionOfType (excluded : List String) : FieldType → String → String → List Selection
  | .scalar _, name, _ => [.leaf name]
  | .reference target, name, path =>
    match target.selectionAt excluded (some path) with
    | [] => []
    | children => [.nested name children]
  | .embedded target, name, path =>
    match target.selectionAt excluded (some path) with
    | [] => []
    | children => [.nested name children]
termination_by structural type => type

end

/-- What a client reads of a document of the schema. -/
def selection (schema : Schema) (excluded : List String) : List Selection :=
  schema.selectionAt excluded none

theorem selectionAt_eq (excluded : List String) (schema : Schema) (above : Option String) :
    schema.selectionAt excluded above = selectionOf excluded schema.fields above := by
  cases schema
  rw [selectionAt]

theorem selectionOf_append (excluded : List String) (as bs : List Field) (above : Option String) :
    selectionOf excluded (as ++ bs) above
      = selectionOf excluded as above ++ selectionOf excluded bs above := by
  induction as with
  | nil => simp [selectionOf]
  | cons a rest ih =>
    obtain ⟨name, type, flags, description, owner⟩ := a
    simp [selectionOf, ih]

/-- Of a first field nothing is read, or one selection under its name. -/
theorem selectionOf_cons_cases (excluded : List String) (field : Field) (rest : List Field)
    (above : Option String) :
    selectionOf excluded (field :: rest) above = selectionOf excluded rest above ∨
    selectionOf excluded (field :: rest) above = .leaf field.name :: selectionOf excluded rest above ∨
    ∃ target, field.target? = some target ∧
      target.selectionAt excluded (some (fieldPath above field.name)) ≠ [] ∧
      selectionOf excluded (field :: rest) above
        = .nested field.name (target.selectionAt excluded (some (fieldPath above field.name)))
          :: selectionOf excluded rest above := by
  obtain ⟨name, type, flags, description, owner⟩ := field
  rw [selectionOf]
  split
  · exact .inl rfl
  · cases type with
    | scalar kind => exact .inr (.inl (by rw [selectionOfType]; rfl))
    | reference target | embedded target =>
      rw [selectionOfType]
      split
      · exact .inl rfl
      · next hne => exact .inr (.inr ⟨target, rfl, fun hnil => hne hnil, rfl⟩)

end Schema

end EntityModel
