import EntityModel.Proofs.Schema.Embedding

/-!
# What a schema leads to

Embedded fields and references alike lead from a schema to their targets, to the targets of these,
and so on. A chain of such fields can be cut after each of its references: the fields up to the
next reference are embedded, and lie in the schema that the last reference led to.

Results:
* `Leads.frozen`, `Leads.fieldFault`, `Leads.eq_of_names_eq`: in a frozen schema a chain leads to
  frozen schemas, and is told by the names of its fields, which are sound.
* `induct_leads`: what holds of a schema whenever it holds of all that it leads to holds of all.
* `Leads.cut_induct`: what holds when a chain starts anew at each reference holds of all chains.
-/
namespace EntityModel

namespace Schema

/-- A chain of fields, each in the target of the one before, leads from a schema to `inner`. -/
inductive Leads : Schema → List Field → Schema → Prop
  | here (schema : Schema) : Leads schema [] schema
  | through {schema target inner : Schema} {field : Field} {chain : List Field} :
      field ∈ schema.fields → field.target? = some target → Leads target chain inner →
      Leads schema (field :: chain) inner

/-- A field that the schema leads to refers to `target`. -/
def Refers (schema target : Schema) : Prop :=
  ∃ chain inner field, schema.Leads chain inner ∧ field ∈ inner.fields ∧
    field.type = .reference target

namespace Leads

variable {schema inner : Schema} {chain : List Field}

theorem trans {rest : List Field} {target : Schema} (h : schema.Leads chain inner)
    (h' : inner.Leads rest target) : schema.Leads (chain ++ rest) target := by
  induction h with
  | here => exact h'
  | through hf ht _ ih => exact .through hf ht (ih h')

theorem frozen (h : schema.Leads chain inner) (hs : schema.Frozen) : inner.Frozen := by
  induction h with
  | here => exact hs
  | through hf ht _ ih => exact ih (hs.target hf ht)

/-- The fields along a chain from a frozen schema are called what fields may be called. -/
theorem fieldFault (h : schema.Leads chain inner) (hs : schema.Frozen) :
    ∀ field ∈ chain, Name.fieldNameFault? field.name = none := by
  induction h with
  | here => simp
  | through hf ht _ ih =>
    intro field hfield
    rcases List.mem_cons.1 hfield with rfl | hrest
    · exact hs.fieldFault hf
    · exact ih (hs.target hf ht) field hrest

/-- Chains of the same names in a frozen schema are one chain. -/
theorem eq_of_names_eq {other : List Field} {end' : Schema} (h : schema.Leads chain inner)
    (ho : schema.Leads other end') (hs : schema.Frozen)
    (hn : other.map (·.name) = chain.map (·.name)) : other = chain ∧ end' = inner := by
  induction h generalizing other with
  | here =>
    obtain rfl := List.map_eq_nil_iff.1 hn
    cases ho
    exact ⟨rfl, rfl⟩
  | through hf ht _ ih =>
    cases ho with
    | here => cases hn
    | through hf' ht' hrest =>
      obtain ⟨hname, hnames⟩ := List.cons.inj hn
      obtain rfl := hs.eq_of_name_eq hf' hf hname
      cases ht.symm.trans ht'
      obtain ⟨rfl, rfl⟩ := ih hrest (hs.target hf ht) hnames
      exact ⟨rfl, rfl⟩

/-- Induction over the chains from `root`, of which `front`, all embedded, has been gone: an
embedded field lengthens `front`, a reference makes its target the root. -/
theorem cut_induct {motive : Schema → List Field → List Field → Schema → Prop}
    (here : ∀ root front inner, root.Embeds (fun _ => True) front inner →
      motive root front [] inner)
    (embedded : ∀ root front schema field target rest inner,
      root.Embeds (fun _ => True) front schema → field ∈ schema.fields →
      field.type = .embedded target → motive root (front ++ [field]) rest inner →
      motive root front (field :: rest) inner)
    (reference : ∀ root front schema field target rest inner,
      root.Embeds (fun _ => True) front schema → field ∈ schema.fields →
      field.type = .reference target → motive target [] rest inner →
      motive root front (field :: rest) inner)
    {root : Schema} {front : List Field} (hroot : root.Embeds (fun _ => True) front schema)
    (h : schema.Leads chain inner) : motive root front chain inner := by
  induction h generalizing root front with
  | here => exact here _ _ _ hroot
  | @through schema target inner field rest hf ht _ ih =>
    cases hty : field.type with
    | scalar kind => simp [Field.target?, hty, FieldType.target?] at ht
    | reference other =>
      obtain rfl : other = target := Option.some_inj.1 ((target?_of_reference hty).symm.trans ht)
      exact reference _ _ _ _ _ _ _ hroot hf hty (ih (.here _))
    | embedded other =>
      obtain rfl : other = target := Option.some_inj.1 ((target?_of_embedded hty).symm.trans ht)
      exact embedded _ _ _ _ _ _ _ hroot hf hty (ih (hroot.snoc hf trivial hty))

end Leads

/-- What holds of every schema if it holds of all that its fields lead to holds of all schemas. -/
theorem induct_leads {P : Schema → Prop}
    (step : ∀ schema, (∀ chain inner, chain ≠ [] → schema.Leads chain inner → P inner) → P schema)
    (schema : Schema) : P schema := by
  have hall : ∀ chain inner, schema.Leads chain inner → P inner := by
    induction schema using Schema.induct with
    | step schema ih =>
      have hbelow : ∀ chain inner, chain ≠ [] → schema.Leads chain inner → P inner := by
        intro chain inner hne hl
        cases hl with
        | here => exact absurd rfl hne
        | through hf ht hrest => exact ih _ hf _ ht _ _ hrest
      intro chain inner hl
      by_cases hne : chain = []
      · subst hne
        cases hl
        exact step schema hbelow
      · exact hbelow chain inner hne hl
  exact hall [] schema (.here schema)

theorem Embeds.leads {p : Field → Prop} {schema inner : Schema} {chain : List Field}
    (h : schema.Embeds p chain inner) : schema.Leads chain inner := by
  induction h with
  | here => exact .here _
  | under hf _ ht _ ih => exact .through hf (target?_of_embedded ht) ih

/-! ## A sample

A report embeds remarks, each about a workflow, which refers to a category. -/

namespace Sample

def remark : Schema where
  serial := 4
  name := "Remark"
  pluralName := "Remarks"
  description := none
  isEntity := false
  fields := [{ Field.ofSchema "about" workflow with owner := some "Remark" },
    { Field.scalar "text" .string with owner := some "Remark" }]

def report : Schema where
  serial := 5
  name := "Report"
  pluralName := "Reports"
  description := none
  isEntity := true
  fields := [{ Field.ofSchema "remarks" remark with
    owner := some "Report", flags := { array := true } }]

theorem remark_frozen : remark.Frozen := by
  refine (frozen_iff remark).2 ⟨by decide, ?_, by decide⟩
  simp [remark, Field.scalar, Field.ofSchema, Field.ofType, Field.target?, FieldType.ofSchema,
    FieldType.target?, workflow_frozen, show workflow.isEntity = true from rfl]

theorem report_frozen : report.Frozen := by
  refine (frozen_iff report).2 ⟨by decide, ?_, by decide⟩
  simp [report, Field.ofSchema, Field.ofType, Field.target?, FieldType.ofSchema,
    FieldType.target?, remark_frozen, show remark.isEntity = false from rfl]

/-- From a report over a remark to the workflow that it is about. -/
theorem report_leads : report.Leads (report.fields ++ remark.fields.take 1) workflow :=
  .through (List.mem_cons_self ..) rfl (.through (List.mem_cons_self ..) rfl (.here workflow))

end Sample

end Schema

end EntityModel
