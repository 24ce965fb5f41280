import EntityModel.Config
import EntityModel.Toml.Statement

/-!
# Reading the configuration

A configuration from a TOML document. Its one table is `sdl`, written as a table of its own, as
dotted keys or inline, and never in two of these ways. Unknown keys, keys given twice and values
of another kind make the document unreadable; a missing key keeps its default.

Results:
* `ofToml_empty`: the empty document is the default configuration.
-/
namespace EntityModel.Config

open Toml (Statement Value)

/-- How the table has been written so far. -/
inductive Form where
  /-- Not yet. -/
  | absent
  /-- By dotted keys, and more may come. -/
  | dotted
  /-- As a table of its own, in which the document is now. -/
  | opened
  /-- In one value. -/
  | closed
deriving DecidableEq, Repr

/-- The entries of the table, in the order in which they were given. -/
structure Table where
  form : Form := .absent
  entries : List (String × Value) := []

/-- Adds an entry under a key that is not there yet. -/
def addEntry (entries : List (String × Value)) (key : String) (value : Value) :
    Option (List (String × Value)) :=
  if entries.any (·.1 == key) then none else some (entries ++ [(key, value)])

/-- The entries of an inline table, all of them under plain keys. -/
def plainEntries : List (List String × Value) → Option (List (String × Value))
  | entries => entries.foldlM (fun found entry =>
    match entry with
    | ([key], value) => addEntry found key value
    | _ => none) []

/-- The keys of the table, in the order that a list gives their values in. -/
def keyOrder : List String := ["query_type", "mutation_type", "indent", "descriptions"]

/-- The entries of the table when it is written in one value: inline, or as the list of the first
values. -/
def valueEntries : Value → Option (List (String × Value))
  | .table entries => plainEntries entries
  | .list items => some (keyOrder.zip items)
  | _ => none

/-- The table after one more statement. -/
def step (table : Table) : Statement → Option Table
  | .assign [key] value =>
    match table.form with
    | .opened => (addEntry table.entries key value).map fun entries => { table with entries }
    | .absent =>
      if key = "sdl" then (valueEntries value).map fun entries => ⟨.closed, entries⟩ else none
    | _ => none
  | .assign [outer, key] value =>
    match table.form with
    | .absent =>
      if outer = "sdl" then (addEntry table.entries key value).map fun entries => ⟨.dotted, entries⟩
      else none
    | .dotted =>
      if outer = "sdl" then (addEntry table.entries key value).map fun entries => ⟨.dotted, entries⟩
      else none
    | _ => none
  | .openTable [key] =>
    if key = "sdl" ∧ table.form = .absent then some { table with form := .opened } else none
  | _ => none

/-- Sets one key of a layout. -/
def setKey (layout : Sdl.Layout) (entry : String × Value) : Option Sdl.Layout :=
  match entry with
  | ("query_type", .text value) => some { layout with queryType := value }
  | ("mutation_type", .text value) => some { layout with mutationType := value }
  | ("indent", .text value) => some { layout with indent := value }
  | ("descriptions", .switch value) => some { layout with descriptions := value }
  | _ => none

/-- The configuration that statements describe, unchecked. -/
def ofStatements? (statements : List Statement) : Option Config := do
  let table ← statements.foldlM step {}
  let layout ← table.entries.foldlM setKey {}
  some { sdl := layout }

/-- The checked configuration of a TOML document. -/
def ofToml (text : String) : Except ConfigError Config :=
  match (Toml.statements? text).bind ofStatements? with
  | none => .error .unreadable
  | some config => config.check.map fun _ => config

theorem ofToml_empty : ofToml "" = .ok {} := by rfl

end EntityModel.Config
