import EntityModel.Join
import EntityModel.Proofs.Schema.Reach
import EntityModel.Selection

/-!
# Joins for all that is read

A client reads references inline: a selection goes from a field to its target, whatever the kind of
field, and the whole way to a block is one path of names. A plan starts a path of its own at each
reference. Cut after its references, the way to a block of a reference is a way through the plan,
so the documents that a client reads are among those that are loaded.

Results:
* `joinsIn_eq_links`, `joins_eq_links`: a plan has a join for each reference that the check of a catalog sees.
* `joins_reach`: the plan of a schema goes along every chain that ends in a reference.
* `leads_of_hasBlock`: the blocks of a selection stand at chains of fields.
* `selection_joined`: the way to each block of a reference is a way through the plan.
-/
namespace EntityModel

namespace Join

/-- The plan has a join for the first segment, which carries one for the second, and so on. -/
inductive Reaches : List Join → List String → Prop
  | last {plan : List Join} {join : Join} : join ∈ plan → Reaches plan [join.path]
  | next {plan inner : List Join} {join : Join} {segments : List String} : join ∈ plan →
      join.nested = some inner → Reaches inner segments → Reaches plan (join.path :: segments)

/-- The dotted names along a chain, cut after each reference; `front` are the names since the last
cut. What follows the last reference is part of no segment. -/
def segmentsAfter (front : List String) : List Field → List String
  | [] => []
  | field :: rest =>
    if field.isReference then ".".intercalate (front ++ [field.name]) :: segmentsAfter [] rest
    else segmentsAfter (front ++ [field.name]) rest

/-- The dotted names along a chain, cut after each reference. -/
def segments (chain : List Field) : List String := segmentsAfter [] chain

theorem Reaches.ne_nil {plan : List Join} {segments : List String} (h : Reaches plan segments) :
    plan ≠ [] := by
  cases h with
  | last hm => exact List.ne_nil_of_mem hm
  | next hm => exact List.ne_nil_of_mem hm

theorem within_ofReference (scope : Option String) (path : String) (nested : List Join) :
    (ofReference path nested).within scope = ofReference (qualify scope path) nested :=
  rfl

theorem nested_ofReference {name : String} {nested : List Join} (h : nested ≠ []) :
    (ofReference name nested).nested = some nested := by
  simp [ofReference, h]

end Join

/-- Seen from one field further out, the dotted path of a reference starts with that field. -/
theorem Link.dotted_under {link : Link} (h : link.path ≠ []) (name : String) :
    (link.under name).dotted = name ++ "." ++ link.dotted :=
  String.intercalate_cons_of_ne_nil h

namespace Schema

/-! ## Plans -/

/-- In a scope a schema has a join for each of its references, with the plan of its target. -/
theorem joinsIn_eq_links (schema : Schema) (scope : Option String) :
    schema.joinsIn scope
      = schema.links.map fun link => .ofReference (Join.qualify scope link.dotted) link.target.joins := by
  induction schema using Schema.induct generalizing scope with
  | step schema ih =>
    rw [joinsIn_eq, links_eq]
    generalize schema.fields = fields at ih
    induction fields with
    | nil => rfl
    | cons field rest ihr =>
      have hrest := ihr fun other ho => ih other (List.mem_cons_of_mem _ ho)
      have hfield := ih field (List.mem_cons_self ..)
      obtain ⟨name, type, flags, description, owner⟩ := field
      cases type with
      | scalar kind => simpa [joinsOf, linksOf] using hrest
      | reference target =>
        simp [joinsOf, linksOf, hrest, joinsIn_eq, joins_eq, Link.dotted]
      | embedded target =>
        rw [joinsOf, linksOf, List.map_append, hrest, hfield target rfl, List.map_map, List.map_map]
        congr 1
        refine List.map_congr_left fun link hl => ?_
        obtain ⟨chain, inner, last, -, -, -, hpath⟩ := mem_links.1 hl
        have hne : link.path ≠ [] := by simp [hpath]
        rw [Function.comp_apply, Function.comp_apply, Join.within_ofReference,
          Link.dotted_under hne, Link.under, Join.qualify]

/-- A plan joins the references of a schema, each with the plan of its target. -/
theorem joins_eq_links (schema : Schema) :
    schema.joins = schema.links.map fun link => .ofReference link.dotted link.target.joins := by
  rw [joins_eq, ← joinsIn_eq]
  exact joinsIn_eq_links schema none

/-- A reference at the end of embedded fields has a join under their dotted names. -/
theorem mem_joins {root schema target : Schema} {front : List Field} {field : Field}
    (hfront : root.Embeds (fun _ => True) front schema) (hf : field ∈ schema.fields)
    (ht : field.type = .reference target) :
    .ofReference (".".intercalate (front.map (·.name) ++ [field.name])) target.joins
      ∈ root.joins := by
  have hl : (⟨(front ++ [field]).map (·.name), target⟩ : Link) ∈ root.links :=
    mem_links.2 ⟨front, schema, field, hfront, hf, ht, rfl⟩
  rw [joins_eq_links]
  simpa [Link.dotted] using List.mem_map_of_mem hl

/-- **Plans.** The plan of a schema goes along every chain from it that ends in a reference. -/
theorem joins_reach {schema inner : Schema} {chain : List Field} (h : schema.Leads chain inner)
    (hlast : chain.getLast?.any Field.isReference = true) :
    Join.Reaches schema.joins (Join.segments chain) := by
  refine h.cut_induct (motive := fun root front chain _ =>
    chain.getLast?.any Field.isReference = true →
      Join.Reaches root.joins (Join.segmentsAfter (front.map (·.name)) chain))
    ?_ ?_ ?_ (.here schema) hlast
  · intro root front inner _ hlast
    cases hlast
  · intro root front schema field target rest inner _ _ ht ih hlast
    have hfield : field.isReference = false := by simp [Field.isReference, ht]
    rw [Join.segmentsAfter, if_neg (by simp [hfield])]
    cases rest with
    | nil => simp [hfield] at hlast
    | cons next rest => simpa using ih (by simpa using hlast)
  · intro root front schema field target rest inner hfront hf ht ih hlast
    have hjoin := mem_joins hfront hf ht
    rw [Join.segmentsAfter, if_pos (by simp [Field.isReference, ht])]
    cases rest with
    | nil => exact .last hjoin
    | cons next rest =>
      have htarget := ih (by simpa using hlast)
      exact .next hjoin (Join.nested_ofReference htarget.ne_nil) htarget

end Schema

/-! ## Selections -/

/-- The selections have a block under the names, one inside the other. -/
inductive Selection.HasBlock : List Selection → List String → Prop
  | here {selections children : List Selection} {name : String} :
      .nested name children ∈ selections → HasBlock selections [name]
  | inside {selections children : List Selection} {name : String} {path : List String} :
      .nested name children ∈ selections → HasBlock children path →
      HasBlock selections (name :: path)

namespace Schema

/-- A block among what is read of fields is one field's, and holds what is read of its target. -/
theorem field_of_nested_mem {excluded : List String} {fields : List Field} {above : Option String}
    {name : String} {children : List Selection}
    (h : .nested name children ∈ selectionOf excluded fields above) :
    ∃ field ∈ fields, field.name = name ∧ ∃ target, field.target? = some target ∧
      children = target.selectionAt excluded (some (fieldPath above name)) := by
  induction fields with
  | nil => simp [selectionOf] at h
  | cons field rest ih =>
    have hrest (h : .nested name children ∈ selectionOf excluded rest above) :
        ∃ other ∈ field :: rest, other.name = name ∧ ∃ target, other.target? = some target ∧
          children = target.selectionAt excluded (some (fieldPath above name)) := by
      obtain ⟨other, ho, hother⟩ := ih h
      exact ⟨other, List.mem_cons_of_mem _ ho, hother⟩
    rcases selectionOf_cons_cases excluded field rest above with he | he | ⟨target, ht, -, he⟩ <;>
      rw [he] at h
    · exact hrest h
    · rcases List.mem_cons.1 h with h | h
      · cases h
      · exact hrest h
    · rcases List.mem_cons.1 h with h | h
      · obtain ⟨rfl, rfl⟩ := Selection.nested.inj h
        exact ⟨field, List.mem_cons_self .., rfl, target, ht, rfl⟩
      · exact hrest h

/-- A block of a selection stands at the names of a chain of fields. -/
theorem leads_of_hasBlock {schema : Schema} {excluded path : List String} {above : Option String}
    (h : Selection.HasBlock (schema.selectionAt excluded above) path) :
    ∃ chain target, schema.Leads chain target ∧ chain.map (·.name) = path := by
  generalize hs : schema.selectionAt excluded above = selections at h
  induction h generalizing schema above with
  | here hm =>
    rw [← hs, selectionAt_eq] at hm
    obtain ⟨field, hf, rfl, target, ht, -⟩ := field_of_nested_mem hm
    exact ⟨[field], target, .through hf ht (.here target), rfl⟩
  | inside hm _ ih =>
    rw [← hs, selectionAt_eq] at hm
    obtain ⟨field, hf, rfl, target, ht, rfl⟩ := field_of_nested_mem hm
    obtain ⟨chain, inner, hchain, hnames⟩ := ih rfl
    exact ⟨field :: chain, inner, .through hf ht hchain, by simp [hnames]⟩

/-- **Joins.** Each block that a client reads of a frozen schema, whatever is excluded, stands at
one chain of fields. When the last of them is a reference, the plan has a join for the first segment
of the chain, this join carries one for the second segment, and so on to the last. -/
theorem selection_joined {schema : Schema} (frozen : schema.Frozen) {excluded path : List String}
    (h : Selection.HasBlock (schema.selection excluded) path) :
    ∃ chain target, schema.Leads chain target ∧ chain.map (·.name) = path ∧
      (∀ other end', schema.Leads other end' → other.map (·.name) = path → other = chain) ∧
      (chain.getLast?.any Field.isReference = true →
        Join.Reaches schema.joins (Join.segments chain)) := by
  obtain ⟨chain, target, hchain, rfl⟩ := leads_of_hasBlock h
  refine ⟨chain, target, hchain, rfl, ?_, joins_reach hchain⟩
  intro other end' ho hn
  exact (hchain.eq_of_names_eq ho frozen hn).1

/-- In a report a client reads the remarks, in these the workflow, and there the category: the plan
joins the workflow under a path through the remarks, and under it the category. -/
theorem selection_sample_joined :
    Selection.HasBlock (Sample.report.selection ["remarks.text"]) ["remarks", "about", "category"] ∧
      Join.Reaches Sample.report.joins ["remarks.about", "category"] := by
  have hblock : Selection.HasBlock (Sample.report.selection ["remarks.text"])
      ["remarks", "about", "category"] :=
    .inside (List.mem_cons_self ..) (.inside (List.mem_cons_self ..)
      (.here (List.mem_cons_of_mem _ (List.mem_cons_self ..))))
  refine ⟨hblock, ?_⟩
  obtain ⟨chain, target, hchain, hnames, hunique, hreach⟩ :=
    selection_joined Sample.report_frozen hblock
  have hlast : Sample.workflow.Leads ((Sample.workflow.fields.drop 1).take 1) Sample.category :=
    .through (List.mem_cons_of_mem _ (List.mem_cons_self ..)) rfl (.here Sample.category)
  obtain rfl := hunique _ _ (Sample.report_leads.trans hlast) rfl
  exact hreach rfl

end Schema

end EntityModel
