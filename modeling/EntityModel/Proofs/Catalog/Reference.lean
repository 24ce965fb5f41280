import EntityModel.Proofs.Catalog.Acceptance
import EntityModel.Proofs.Schema.Reach

/-!
# References across a catalog

A catalog checks the references that a schema holds itself or in the shapes that it embeds, and
does not follow them. Following them leads to schemas of the catalog again, whose references were
checked on their own account: so every reference that can be reached leads to a schema that the
catalog finds. What kind of schema this is was not asked.

Results:
* `origin_of_leads`: what a schema of the catalog leads to is embedded in a schema of the catalog.
* `references_registered`: references lead to what the catalog finds, and lead to entities exactly
  when those do that the check sees.
-/
namespace EntityModel

namespace Catalog

variable {catalog : Catalog}

theorem references (catalog : Catalog) : ∀ schema ∈ catalog.schemas, ∀ chain inner field target,
    schema.Embeds (fun _ => True) chain inner → field ∈ inner.fields →
      field.type = .reference target → target ∈ catalog.schemas := by
  intro schema hm
  have hlinks := ((catalogIssues_isEmpty_iff _).1 catalog.sound).2.2 schema hm
  exact (linkMessages_eq_nil_iff catalog.keysDiffer schema).1 hlinks

/-- What a schema of the catalog leads to lies in a schema of the catalog: in the target of the
last reference on the way. -/
theorem origin_of_leads {schema inner : Schema} {chain : List Field} (hm : schema ∈ catalog.schemas)
    (h : schema.Leads chain inner) :
    ∃ origin ∈ catalog.schemas, ∃ front, origin.Embeds (fun _ => True) front inner := by
  refine h.cut_induct (motive := fun root _ _ inner => root ∈ catalog.schemas →
    ∃ origin ∈ catalog.schemas, ∃ front, origin.Embeds (fun _ => True) front inner)
    ?_ ?_ ?_ (.here schema) hm
  · intro root front inner hfront hroot
    exact ⟨root, hroot, front, hfront⟩
  · intro root front schema field target rest inner _ _ _ ih
    exact ih
  · intro root front schema field target rest inner hfront hf ht ih hroot
    exact ih (catalog.references root hroot front schema field target hfront hf ht)

/-- A reference that can be reached is one that the check sees, in some schema of the catalog. -/
theorem link_of_refers {schema target : Schema} (hm : schema ∈ catalog.schemas)
    (h : schema.Refers target) :
    ∃ origin ∈ catalog.schemas, ∃ link ∈ origin.links, link.target = target := by
  obtain ⟨chain, inner, field, hchain, hf, ht⟩ := h
  obtain ⟨origin, ho, front, hfront⟩ := origin_of_leads hm hchain
  refine ⟨origin, ho, ⟨(front ++ [field]).map (·.name), target⟩, ?_, rfl⟩
  exact Schema.mem_links.2 ⟨front, inner, field, hfront, hf, ht, rfl⟩

/-- A reference that the check sees can be reached. -/
theorem refers_of_link {schema : Schema} {link : Link} (h : link ∈ schema.links) :
    schema.Refers link.target := by
  obtain ⟨chain, inner, field, hc, hf, ht, -⟩ := Schema.mem_links.1 h
  exact ⟨chain, inner, field, hc.leads, hf, ht⟩

theorem mem_of_refers {schema target : Schema} (hm : schema ∈ catalog.schemas)
    (h : schema.Refers target) : target ∈ catalog.schemas := by
  obtain ⟨chain, inner, field, hchain, hf, ht⟩ := h
  obtain ⟨origin, ho, front, hfront⟩ := origin_of_leads hm hchain
  exact catalog.references origin ho front inner field target hfront hf ht

/-- **References.** Every reference that a schema of a catalog leads to, over whatever chain of
embedded fields and references, leads to the very instance that the catalog finds under its name.
All of them lead to entities exactly when those do that the schemas hold themselves or in the
shapes that they embed. -/
theorem references_registered (catalog : Catalog) :
    (∀ schema ∈ catalog.schemas, ∀ target, schema.Refers target → target ∈ catalog.schemas ∧
      ∀ name, lookupKey name = lookupKey target.name → catalog.find name = .ok target) ∧
    ((∀ schema ∈ catalog.schemas, ∀ target, schema.Refers target → target.isEntity = true) ↔
      ∀ schema ∈ catalog.schemas, ∀ link ∈ schema.links, link.target.isEntity = true) := by
  refine ⟨?_, ?_, ?_⟩
  · intro schema hm target h
    have htarget := mem_of_refers hm h
    exact ⟨htarget, fun name hname => find_eq_ok_iff.2 ⟨htarget, hname.symm⟩⟩
  · intro h schema hm link hl
    exact h schema hm link.target (refers_of_link hl)
  · intro h schema hm target href
    obtain ⟨origin, ho, link, hl, rfl⟩ := link_of_refers hm href
    exact h origin ho link hl

end Catalog

namespace Schema.Sample

/-- Categories, workflows and the reports on them. -/
def reports : Catalog := ⟨[category, workflow, report], by decide⟩

/-- Over a remark and its workflow a report refers to a category, which is the one that the catalog
finds; all references lead to entities. -/
theorem reports_registered : report.Refers category ∧ reports.find "CATEGORY" = .ok category ∧
    ∀ schema ∈ reports.schemas, ∀ target, schema.Refers target → target.isEntity = true := by
  have h := Catalog.references_registered reports
  have hm : report ∈ reports.schemas := by decide
  have href : report.Refers category :=
    ⟨_, workflow, _, report_leads, List.mem_cons_of_mem _ (List.mem_cons_self ..), rfl⟩
  exact ⟨href, (h.1 report hm category href).2 "CATEGORY" (by decide), h.2.2 (by decide)⟩

/-! ## A reference to a shape -/

def part : Schema where
  serial := 0
  name := "Part"
  pluralName := "Parts"
  description := none
  isEntity := false
  fields := [{ Field.scalar "note" .string with owner := some "Part" }]

/-- Refers to a part as if it were an entity. -/
def whole : Schema where
  serial := 1
  name := "Whole"
  pluralName := "Wholes"
  description := none
  isEntity := true
  fields := [{ Field.ofType "part" (.reference part) with owner := some "Whole" }]

theorem part_frozen : part.Frozen := by
  refine (frozen_iff part).2 ⟨by decide, ?_, by decide⟩
  simp [part, Field.scalar, Field.ofType, Field.target?, FieldType.target?]

theorem whole_frozen : whole.Frozen := by
  refine (frozen_iff whole).2 ⟨by decide, ?_, by decide⟩
  simp [whole, Field.ofType, Field.target?, FieldType.target?, part_frozen]

def wholes : Catalog := ⟨[part, whole], by decide⟩

/-- Two frozen schemas that make a catalog: a whole refers to a part, which is no entity. -/
theorem whole_refers_to_shape : part.Frozen ∧ whole.Frozen ∧
    Catalog.ofSchemas [part, whole] = .ok wholes ∧ whole ∈ wholes.schemas ∧ whole.Refers part ∧
      part.isEntity = false :=
  ⟨part_frozen, whole_frozen, rfl, by decide,
    ⟨[], whole, _, .here whole, List.mem_cons_self .., rfl⟩, rfl⟩

end Schema.Sample

end EntityModel
