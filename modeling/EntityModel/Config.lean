import EntityModel.IssueTree
import EntityModel.Json
import EntityModel.Name
import EntityModel.Sdl.Layout

/-!
# Configuration

What can be configured: the layout of generated documents. The root types have distinct names that
are identifiers, and the indent is made of spaces and tabs.

Results:
* `issues_default`: the default configuration is sound.
-/
namespace EntityModel

/-- The configuration. -/
structure Config where
  sdl : Sdl.Layout := {}
deriving DecidableEq, Repr

/-- Why there is no configuration. -/
inductive ConfigError where
  | invalid (issues : IssueTree)
  | unreadable

/-- The cause in words. -/
def ConfigError.message : ConfigError → String
  | .invalid issues => s!"invalid generator config: {issues.text}"
  | .unreadable => "failed to parse generator config"

/-- Files the fault of an identifier under a key. -/
def IssueTree.addIdentFault (tree : IssueTree) (key ident : String) : IssueTree :=
  match Name.identFault? ident with
  | some fault => tree.addFor key fault.message
  | none => tree

namespace Sdl.Layout

/-- The text can indent. -/
def isIndent (text : String) : Bool := text != "" && text.toList.all fun c => c == ' ' || c == '\t'

/-- Every issue of a layout. -/
def issues (layout : Layout) : IssueTree :=
  let named := (IssueTree.empty.addIdentFault "query_type" layout.queryType).addIdentFault
    "mutation_type" layout.mutationType
  let rooted := if layout.queryType = layout.mutationType then
      named.add "query_type and mutation_type must differ"
    else named
  if isIndent layout.indent then rooted
  else rooted.addFor "indent" "indent must be non-empty whitespace"

end Sdl.Layout

namespace Config

/-- Checks a configuration. -/
def check (config : Config) : Except ConfigError Unit :=
  config.sdl.issues.result.mapError ConfigError.invalid

/-- The JSON form of a configuration. -/
def toJson (config : Config) : Json :=
  .object [("sdl", .object [("query_type", .str config.sdl.queryType),
    ("mutation_type", .str config.sdl.mutationType), ("indent", .str config.sdl.indent),
    ("descriptions", .bool config.sdl.descriptions)])]

theorem issues_default : ({} : Sdl.Layout).issues.isEmpty = true := by decide

end Config

end EntityModel
