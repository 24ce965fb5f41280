import EntityModel.Config.Reader
import EntityModel.Decode
import EntityModel.Dispatch
import EntityModel.IssueTree.Form
import EntityModel.Proofs.Catalog.Acceptance
import EntityModel.Proofs.FindQuery.RoundTrip
import EntityModel.Proofs.Sdl.Closed
import EntityModel.Proofs.Sdl.Distinct
import EntityModel.Schema.Form
import EntityModel.Proofs.Sdl.Refusal
import EntityModel.Proofs.Dispatch
import EntityModel.Proofs.Sdl.Expansion
import EntityModel.Proofs.Service.Change
import EntityModel.Proofs.Service.Session
import EntityModel.Proofs.Service.Removal
import EntityModel.Proofs.Operation
import EntityModel.Proofs.Sdl.ClientView
import EntityModel.Proofs.Sdl.Order
import EntityModel.Proofs.Catalog.Reference
import EntityModel.Proofs.Join
import EntityModel.Proofs.Config
import EntityModel.Proofs.Sdl.Names
import EntityModel.Proofs.Sdl.Roots
import EntityModel.Proofs.Sdl.Scalars
import EntityModel.Proofs.Service.Filing
import EntityModel.Proofs.Sdl.Description
import EntityModel.Proofs.Sdl.Filled
import EntityModel.Proofs.Service.Frame
import EntityModel.Proofs.Schema.Composition
import EntityModel.Proofs.Schema.WellFormed
import EntityModel.Proofs.Join.Route
import EntityModel.Proofs.FindQuery.Count
import EntityModel.Proofs.Name.Pascal
import EntityModel.Proofs.Selection.Reader
import EntityModel.Proofs.Selection.Leaves
import EntityModel.Proofs.Request
import EntityModel.Proofs.FindQuery.Keys
import EntityModel.Proofs.Catalog.Lookup
import EntityModel.Proofs.Dispatch.Direct
import EntityModel.Proofs.Catalog.Stray
import EntityModel.Proofs.IssueTree.Merge
import EntityModel.Proofs.Decode
import EntityModel.Proofs.Service.Paging
