import EntityModel.Proofs.Catalog.Acceptance
import EntityModel.Proofs.Schema.Route

/-!
# References that leave the set

The check of references collects every reference of a schema first and resolves it later by name. A
reference is *stray* when it leads to no schema of the set, be it that none has the name, or that
another instance has it. What the check says is told here from the routes to stray references, and
so without collecting or resolving.

Results:
* `Route.messages_of_stray`: the one message about a stray reference.
* `forall₂_strayMessage`: the messages about routes are those about the stray ones, in order.
* `linkIssues_eq`, `catalogIssues_eq`: what the checks file.
* `stray_references_reported`: each stray reference is reported once.
-/
namespace EntityModel

/-- The names along the route in words. -/
def Route.dotted (route : Route) : String := ".".intercalate route.names

/-- The text about a route that ends at a stray reference. -/
inductive StrayMessage (schemas : List Schema) (route : Route) : String → Prop
  /-- No schema has the name, whatever its case. -/
  | unregistered :
      (∀ schema ∈ schemas, lookupKey schema.name ≠ lookupKey route.target.name) →
      StrayMessage schemas route
        s!"field '{route.dotted}' references unregistered schema '{route.target.name}'"
  /-- A schema has the name up to case, but it is another one. -/
  | otherInstance {schema : Schema} : schema ∈ schemas →
      lookupKey schema.name = lookupKey route.target.name →
      StrayMessage schemas route (s!"field '{route.dotted}' references a different instance of schema "
        ++ s!"'{route.target.name}' than the registered one")

/-! ## One schema -/

section

variable {schemas : List Schema}

theorem Route.messages_of_stray (hk : KeysDiffer schemas) {route : Route}
    (h : route.target ∉ schemas) : ∃ message, route.link.messages schemas = [message] ∧
      StrayMessage schemas route message := by
  simp only [Link.messages, Route.link]
  cases hfound : registeredAs? schemas route.target.name with
  | none =>
    refine ⟨_, rfl, .unregistered fun schema hm hkey => ?_⟩
    rw [(registeredAs?_eq_some_iff hk).2 ⟨hm, hkey⟩] at hfound
    cases hfound
  | some found =>
    obtain ⟨hm, hkey⟩ := (registeredAs?_eq_some_iff hk).1 hfound
    have hne : found ≠ route.target := fun he => h (he ▸ hm)
    exact ⟨_, if_neg hne, .otherInstance hm hkey⟩

/-- Routes have one message for each stray one, in order. -/
theorem forall₂_strayMessage (hk : KeysDiffer schemas) (routes : List Route) :
    List.Forall₂ (StrayMessage schemas) (routes.filter fun route => route.target ∉ schemas)
      (routes.flatMap fun route => route.link.messages schemas) := by
  induction routes with
  | nil => exact .nil
  | cons route rest ih =>
    by_cases hm : route.target ∈ schemas
    · have hnone : route.link.messages schemas = [] := (Link.messages_eq_nil_iff hk _).2 hm
      rw [List.filter_cons_of_neg (by simpa using hm), List.flatMap_cons, hnone]
      exact ih
    · obtain ⟨message, hmessage, hstray⟩ := route.messages_of_stray hk hm
      rw [List.filter_cons_of_pos (by simpa using hm), List.flatMap_cons, hmessage]
      exact .cons hstray ih

/-- The messages about the references of a frozen schema, in depth-first order. -/
theorem Schema.Frozen.exists_stray (hk : KeysDiffer schemas) {schema : Schema} (h : schema.Frozen) :
    ∃ routes : List Route,
      (∀ route, route ∈ routes ↔ schema.HasRoute route ∧ route.target ∉ schemas) ∧
      (routes.Pairwise fun a b => a.names < b.names) ∧
      List.Forall₂ (StrayMessage schemas) routes (schema.linkMessages schemas) := by
  obtain ⟨routes, hmem, hascending, hlinks⟩ := h.exists_routes
  refine ⟨routes.filter fun route => route.target ∉ schemas, fun route => ?_,
    hascending.sublist List.filter_sublist, ?_⟩
  · simp [hmem]
  · rw [linkMessages, hlinks, List.flatMap_map]
    exact forall₂_strayMessage hk routes

end

/-! ## All schemas -/

/-- The issues of references, when no others are looked for. -/
def linkIssues (schemas : List Schema) : IssueTree :=
  schemas.foldl (fun tree schema => tree.addAllFor schema.name (schema.linkMessages schemas)) .empty

/-- The messages about references under the names of the schemas. -/
def linkEntries (schemas : List Schema) : Keyed IssueTree :=
  Keyed.ofList (IssueTree.filed Schema.name (Schema.linkMessages schemas) schemas)

theorem KeysDiffer.names_nodup {schemas : List Schema} (h : KeysDiffer schemas) :
    (schemas.map Schema.name).Nodup :=
  List.pairwise_map.2 (h.imp name_ne_of_key_ne)

theorem linkIssues_eq {schemas : List Schema} (hk : KeysDiffer schemas) :
    linkIssues schemas = ⟨[], linkEntries schemas⟩ :=
  IssueTree.foldl_addAllFor_eq Schema.name (Schema.linkMessages schemas) hk.names_nodup
    fun _ _ => rfl

/-- The check of a whole set files the same about references, below what it says of names. -/
theorem catalogIssues_eq {schemas : List Schema} (hk : KeysDiffer schemas) :
    catalogIssues schemas = ⟨namingMessages schemas, linkEntries schemas⟩ :=
  IssueTree.foldl_addAllFor_eq Schema.name (Schema.linkMessages schemas) hk.names_nodup
    fun _ _ => rfl

/-- **Stray references.** The check of references files nothing but messages under names of schemas,
and the check of a whole set files the same beside the messages on names. Under a schema stands one
message for each route of it, over whatever embedded fields, to a reference that leaves the set, in
depth-first order, which is the order of the names along the routes. A schema without such a route
has no entry. -/
theorem stray_references_reported {schemas : List Schema}
    (frozen : ∀ schema ∈ schemas, schema.Frozen) (distinct : KeysDiffer schemas) :
    ∃ entries : Keyed IssueTree,
      linkIssues schemas = ⟨[], entries⟩ ∧
      catalogIssues schemas = ⟨namingMessages schemas, entries⟩ ∧
      Keyed.Ascending entries ∧
      (∀ name ∈ Keyed.keys entries, ∃ schema ∈ schemas, schema.name = name) ∧
      ∀ schema ∈ schemas, ∃ (routes : List Route) (messages : List String),
        (∀ route, route ∈ routes ↔ schema.HasRoute route ∧ route.target ∉ schemas) ∧
        (routes.Pairwise fun a b => a.names < b.names) ∧
        List.Forall₂ (StrayMessage schemas) routes messages ∧
        Keyed.get? schema.name entries = if routes = [] then none else some ⟨messages, []⟩ := by
  refine ⟨linkEntries schemas, linkIssues_eq distinct, catalogIssues_eq distinct,
    Keyed.ascending_ofList _, ?_, ?_⟩
  · intro name hname
    obtain ⟨⟨_, below⟩, hentry, rfl⟩ := List.mem_map.1 hname
    obtain ⟨schema, hm, hkey, -⟩ := IssueTree.mem_filed.1
      ((Keyed.mem_ofList (IssueTree.keys_filed_nodup _ distinct.names_nodup)).1 hentry)
    exact ⟨schema, hm, hkey⟩
  · intro schema hm
    obtain ⟨routes, hroutes, hascending, hmessages⟩ := (frozen schema hm).exists_stray distinct
    refine ⟨routes, schema.linkMessages schemas, hroutes, hascending, hmessages, ?_⟩
    have hnil : schema.linkMessages schemas = [] ↔ routes = [] := by
      rw [← List.length_eq_zero_iff, ← hmessages.length_eq, List.length_eq_zero_iff]
    rw [linkEntries, IssueTree.get?_filed (Schema.linkMessages schemas) distinct.names_nodup hm]
    simp only [hnil]

namespace Schema.Sample

/-- Workflows once more, frozen on their own. -/
def recast : Schema := { workflow with serial := 6 }

/-- Embeds remarks twice, once out of sight of clients, and refers to a report. -/
def digest : Schema where
  serial := 7
  name := "Digest"
  pluralName := "Digests"
  description := none
  isEntity := true
  fields := [{ Field.ofSchema "first" remark with owner := some "Digest" },
    { Field.ofSchema "last" remark with owner := some "Digest", flags := { internal := true } },
    { Field.ofSchema "source" report with owner := some "Digest" }]

theorem recast_frozen : recast.Frozen := by
  refine (frozen_iff recast).2 ⟨by decide, ?_, by decide⟩
  simp [recast, workflow, Field.identifier, Field.scalar, Field.ofSchema, Field.ofType,
    Field.target?, FieldType.ofSchema, FieldType.target?, step_frozen, category_frozen,
    show step.isEntity = false from rfl, show category.isEntity = true from rfl]

theorem digest_frozen : digest.Frozen := by
  refine (frozen_iff digest).2 ⟨by decide, ?_, by decide⟩
  simp [digest, Field.ofSchema, Field.ofType, Field.target?, FieldType.ofSchema,
    FieldType.target?, remark_frozen, report_frozen, show remark.isEntity = false from rfl,
    show report.isEntity = true from rfl]

/-- Remarks are about workflows that are not these, and reports are missing. -/
def strays : List Schema := [category, recast, digest]

/-- What is said of the digest: twice of the routes over a remark, then of the direct one. -/
def digestMessages : List String :=
  ["field 'first.about' references a different instance of schema 'Workflow' than the registered one",
    "field 'last.about' references a different instance of schema 'Workflow' than the registered one",
    "field 'source' references unregistered schema 'Report'"]

theorem strays_frozen : ∀ schema ∈ strays, schema.Frozen := by
  simp [strays, category_frozen, recast_frozen, digest_frozen]

end Schema.Sample

open Schema.Sample in
/-- The digest has three routes out of the set, each with a message of its own. -/
theorem stray_references_digest : KeysDiffer strays ∧ ∃ routes : List Route,
    (∀ route, route ∈ routes ↔ digest.HasRoute route ∧ route.target ∉ strays) ∧
    List.Forall₂ (StrayMessage strays) routes digestMessages := by
  have distinct : KeysDiffer strays := by unfold KeysDiffer; decide
  have hfiled : (Keyed.get? digest.name (linkIssues strays).children).map (·.messages)
      = some digestMessages := by decide
  obtain ⟨entries, hlinks, -, -, -, hschemas⟩ := stray_references_reported strays_frozen distinct
  obtain ⟨routes, messages, hroutes, -, hmessages, hget⟩ := hschemas digest (by decide)
  rw [hlinks, hget] at hfiled
  split at hfiled
  · cases hfiled
  · exact ⟨distinct, routes, hroutes, Option.some.inj hfiled ▸ hmessages⟩

end EntityModel
