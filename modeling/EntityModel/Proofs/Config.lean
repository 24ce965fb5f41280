import EntityModel.Config
import EntityModel.Proofs.IssueTree

/-!
# Sound configurations

The check of a configuration files an issue per rule that is broken, and passes when there is none.
It looks at the configuration alone: what a catalog declares under the same names it does not see.

Results:
* `Config.check_eq_ok_iff`: the rules that a configuration is held to.
-/
namespace EntityModel

namespace IssueTree

theorem isEmpty_add (tree : IssueTree) (message : String) : (tree.add message).isEmpty = false := by
  rw [isEmpty_eq]
  simp [add]

theorem isEmpty_addIdentFault (tree : IssueTree) (key ident : String) :
    (tree.addIdentFault key ident).isEmpty
      = (tree.isEmpty && (Name.identFault? ident).isNone) := by
  unfold addIdentFault
  cases Name.identFault? ident with
  | none => simp
  | some fault => simp [isEmpty_addFor]

end IssueTree

theorem Sdl.Layout.issues_isEmpty_iff (layout : Layout) : layout.issues.isEmpty = true ↔
    Name.identFault? layout.queryType = none ∧ Name.identFault? layout.mutationType = none ∧
      layout.queryType ≠ layout.mutationType ∧ isIndent layout.indent = true := by
  have hempty : IssueTree.empty.isEmpty = true := by decide
  unfold issues
  by_cases hroots : layout.queryType = layout.mutationType <;>
    by_cases hindent : isIndent layout.indent = true <;>
    simp [hroots, hindent, IssueTree.isEmpty_add, IssueTree.isEmpty_addFor,
      IssueTree.isEmpty_addIdentFault, hempty]

/-- A configuration passes when the root types are identifiers that differ and the indent is one. -/
theorem Config.check_eq_ok_iff (config : Config) : config.check = .ok () ↔
    Name.identFault? config.sdl.queryType = none ∧ Name.identFault? config.sdl.mutationType = none ∧
      config.sdl.queryType ≠ config.sdl.mutationType ∧
      Sdl.Layout.isIndent config.sdl.indent = true := by
  rw [← Sdl.Layout.issues_isEmpty_iff]
  unfold check IssueTree.result
  cases config.sdl.issues.isEmpty with
  | true => exact ⟨fun _ => rfl, fun _ => rfl⟩
  | false => constructor <;> (intro h; cases h)

theorem Config.check_default : Config.check {} = .ok () := (check_eq_ok_iff {}).2 (by decide)

end EntityModel
