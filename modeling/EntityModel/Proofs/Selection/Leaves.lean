import Mathlib.Data.List.Infix
import Mathlib.Data.List.Nodup
import EntityModel.Proofs.Schema.Reach
import EntityModel.Proofs.Selection.Reader

/-!
# What is read of a schema

A client reads scalars: the leaves of a selection stand at the paths of names that lead to a scalar
over fields none of which is internal. An exclusion cuts all the paths that go through it. What is
left of a block without a leaf is left out, level by level, so that every block has one.

Results:
* `mem_leavesOf_selectionAt`: the leaves below a path are those of the schema that no exclusion cuts.
* `tidy_selectionAt`, `named_selectionAt`: the order of a selection, its blocks and its names.
* `selectionAt_congr`: exclusions count as a set.
* `selection_leaves`: what the text of a selection says to whoever reads it.
-/
namespace EntityModel

namespace Selection

/-! ## Leaves -/

mutual

/-- The paths of names that end in a field without a block. -/
def leaves : Selection → List (List String)
  | leaf name => [[name]]
  | nested name children => (leavesOf children).map (name :: ·)
termination_by structural selection => selection

/-- The leaves of selections, in order. -/
def leavesOf : List Selection → List (List String)
  | [] => []
  | selection :: rest => selection.leaves ++ leavesOf rest
termination_by structural selections => selections

end

/-- At every level the names ascend, and every block has a leaf. -/
inductive Tidy : List Selection → Prop
  | nil : Tidy []
  | leaf {name : String} {rest : List Selection} : (∀ other ∈ rest, name < other.name) →
      Tidy rest → Tidy (.leaf name :: rest)
  | nested {name : String} {children rest : List Selection} :
      (∀ other ∈ rest, name < other.name) → leavesOf children ≠ [] → Tidy children →
      Tidy rest → Tidy (.nested name children :: rest)

theorem leavesOf_append (as bs : List Selection) :
    leavesOf (as ++ bs) = leavesOf as ++ leavesOf bs := by
  induction as with
  | nil => rfl
  | cons a rest ih => simp [leavesOf, ih]

theorem leavesOf_singleton (selection : Selection) : leavesOf [selection] = selection.leaves := by
  simp [leavesOf]

/-- A leaf stands under the name of its field. -/
theorem head_of_mem_leaves {selection : Selection} {path : List String}
    (h : path ∈ selection.leaves) : path.head? = some selection.name := by
  cases selection with
  | leaf name =>
    obtain rfl := List.mem_singleton.1 h
    rfl
  | nested name children =>
    obtain ⟨rest, -, rfl⟩ := List.mem_map.1 h
    rfl

theorem head_of_mem_leavesOf {selections : List Selection} {path : List String}
    (h : path ∈ leavesOf selections) :
    ∃ selection ∈ selections, path.head? = some selection.name := by
  induction selections with
  | nil => cases h
  | cons first rest ih =>
    rcases List.mem_append.1 h with h | h
    · exact ⟨first, List.mem_cons_self .., head_of_mem_leaves h⟩
    · obtain ⟨selection, hm, hhead⟩ := ih h
      exact ⟨selection, List.mem_cons_of_mem _ hm, hhead⟩

namespace Tidy

variable {selections : List Selection}

/-- Tidy selections without a leaf are none. -/
theorem eq_nil (h : Tidy selections) (hnone : leavesOf selections = []) : selections = [] := by
  cases h with
  | nil => rfl
  | leaf => simp [leavesOf, leaves] at hnone
  | nested _ hne => exact absurd (by simpa [leavesOf, leaves] using hnone) (by simp [hne])

/-- The leaves of a first field are none of the others. -/
theorem apart {first : Selection} {rest : List Selection}
    (h : ∀ other ∈ rest, first.name < other.name) :
    ∀ path ∈ first.leaves, ∀ other ∈ leavesOf rest, path ≠ other := by
  rintro path hp _ ho rfl
  obtain ⟨selection, hm, hhead⟩ := head_of_mem_leavesOf ho
  have hname := Option.some_inj.1 ((head_of_mem_leaves hp).symm.trans hhead)
  exact String.lt_irrefl _ (hname ▸ h selection hm)

/-- Tidy selections have each leaf once. -/
theorem nodup (h : Tidy selections) : (leavesOf selections).Nodup := by
  induction h with
  | nil => exact List.nodup_nil
  | leaf hlt _ ih => exact List.nodup_append.2 ⟨List.pairwise_singleton .., ih, apart hlt⟩
  | @nested name _ _ hlt _ _ _ ihchildren ih =>
    have hchildren := ihchildren.map (List.cons_injective (a := name))
    exact List.nodup_append.2 ⟨hchildren, ih, apart hlt⟩

end Tidy

end Selection

open Selection (leaves leavesOf listText parse? Tidy Named)

/-! ## Paths -/

/-- The names lead to a scalar, and no field on the way is internal. -/
inductive Schema.HasLeaf : Schema → List String → Prop
  | scalar {schema : Schema} {field : Field} {kind : ScalarKind} : field ∈ schema.fields →
      field.flags.internal = false → field.type = .scalar kind → HasLeaf schema [field.name]
  | under {schema target : Schema} {field : Field} {path : List String} : field ∈ schema.fields →
      field.flags.internal = false → field.target? = some target → HasLeaf target path →
      HasLeaf schema (field.name :: path)

/-- Below the names in front, the path or what it starts with is excluded. -/
def CutBelow (excluded front path : List String) : Prop :=
  ∃ back, back ≠ [] ∧ back <+: path ∧ ".".intercalate (front ++ back) ∈ excluded

/-- The dotted path, or what it starts with, is excluded. -/
def Cut (excluded path : List String) : Prop :=
  ∃ front, front ≠ [] ∧ front <+: path ∧ ".".intercalate front ∈ excluded

instance (excluded path : List String) : Decidable (Cut excluded path) :=
  decidable_of_iff
    (∃ front ∈ path.inits, front ≠ [] ∧ ".".intercalate front ∈ excluded) (by
      simp only [Cut, List.mem_inits, and_left_comm])

theorem cut_iff_cutBelow {excluded path : List String} :
    Cut excluded path ↔ CutBelow excluded [] path :=
  Iff.rfl

theorem cutBelow_cons {excluded front path : List String} {name : String} :
    CutBelow excluded front (name :: path) ↔
      ".".intercalate (front ++ [name]) ∈ excluded ∨ CutBelow excluded (front ++ [name]) path := by
  constructor
  · rintro ⟨back, hne, hprefix, hm⟩
    obtain ⟨first, back, rfl⟩ := List.exists_cons_of_ne_nil hne
    obtain ⟨rfl, hback⟩ := List.cons_prefix_cons.1 hprefix
    cases back with
    | nil => exact .inl hm
    | cons next back => exact .inr ⟨next :: back, List.cons_ne_nil _ _, hback, by simpa using hm⟩
  · rintro (hm | ⟨back, -, hback, hm⟩)
    · exact ⟨[name], List.cons_ne_nil _ _, by simp, hm⟩
    · have hprefix : name :: back <+: name :: path := List.cons_prefix_cons.2 ⟨rfl, hback⟩
      exact ⟨name :: back, List.cons_ne_nil _ _, hprefix, by simpa using hm⟩

theorem not_cutBelow_nil (excluded front : List String) : ¬ CutBelow excluded front [] := by
  rintro ⟨back, hne, hprefix, -⟩
  exact hne (List.prefix_nil.1 hprefix)

theorem not_cut_nil (path : List String) : ¬ Cut [] path := by
  rintro ⟨_, -, -, hm⟩
  cases hm

theorem Cut.mono {excluded more path : List String} (h : Cut excluded path) (hsub : excluded ⊆ more) :
    Cut more path := by
  obtain ⟨front, hne, hprefix, hm⟩ := h
  exact ⟨front, hne, hprefix, hsub hm⟩

/-- The dotted path of the names, if there are any. -/
def dotted? : List String → Option String
  | [] => none
  | front => some (".".intercalate front)

theorem fieldPath_dotted (front : List String) (name : String) :
    fieldPath (dotted? front) name = ".".intercalate (front ++ [name]) := by
  cases front with
  | nil => simp [dotted?, fieldPath]
  | cons first rest =>
    rw [String.intercalate_append_of_ne_nil (List.cons_ne_nil _ _) (List.cons_ne_nil _ _)]
    simp [dotted?, fieldPath]

theorem dotted_snoc (front : List String) (name : String) :
    dotted? (front ++ [name]) = some (".".intercalate (front ++ [name])) := by
  cases front <;> rfl

namespace Schema

/-! ## Leaves of a schema -/

variable {excluded : List String}

theorem leavesOf_selectionOfType_target {type : FieldType} {target : Schema}
    (h : type.target? = some target) (name path : String) :
    leavesOf (selectionOfType excluded type name path)
      = (leavesOf (target.selectionAt excluded (some path))).map (name :: ·) := by
  cases type with
  | scalar kind => cases h
  | reference other | embedded other =>
    obtain rfl : other = target := Option.some_inj.1 h
    rw [selectionOfType]
    split
    · next hnil => rw [hnil]; rfl
    · rw [Selection.leavesOf_singleton, leaves]

/-- A scalar is a leaf, and a block has the leaves of what is read of its target. -/
theorem mem_leavesOf_selectionOfType {type : FieldType} {name place : String} {path : List String} :
    path ∈ leavesOf (selectionOfType excluded type name place) ↔
      (∃ kind, type = .scalar kind ∧ path = [name]) ∨
      ∃ target rest, type.target? = some target ∧ path = name :: rest ∧
        rest ∈ leavesOf (target.selectionAt excluded (some place)) := by
  cases type with
  | scalar kind => simp [selectionOfType, leavesOf, leaves, FieldType.target?]
  | reference target | embedded target =>
    rw [leavesOf_selectionOfType_target rfl, List.mem_map]
    simp [FieldType.target?, eq_comm, and_comm]

/-- A leaf of fields is a leaf of one that is shown and not excluded. -/
theorem mem_leavesOf_selectionOf {fields : List Field} {above : Option String} {path : List String} :
    path ∈ leavesOf (selectionOf excluded fields above) ↔
      ∃ field ∈ fields, field.flags.internal = false ∧ fieldPath above field.name ∉ excluded ∧
        path ∈ leavesOf
          (selectionOfType excluded field.type field.name (fieldPath above field.name)) := by
  induction fields with
  | nil => simp [selectionOf, leavesOf]
  | cons field rest ih =>
    obtain ⟨name, type, flags, description, owner⟩ := field
    rw [selectionOf, Selection.leavesOf_append, List.mem_append, ih]
    simp only [List.mem_cons, exists_eq_or_imp]
    refine or_congr ?_ Iff.rfl
    split
    · next h => grind [leavesOf]
    · next h => grind

/-- Below the names in front, the leaves read are those of the schema that no exclusion cuts. -/
theorem mem_leavesOf_selectionAt (schema : Schema) (front : List String) {path : List String} :
    path ∈ leavesOf (schema.selectionAt excluded (dotted? front)) ↔
      schema.HasLeaf path ∧ ¬ CutBelow excluded front path := by
  induction schema using Schema.induct generalizing front path with
  | step schema ih =>
    have hbelow {field : Field} {target : Schema} (hf : field ∈ schema.fields)
        (ht : field.target? = some target) {path : List String} :
        path ∈ leavesOf (target.selectionAt excluded (some (fieldPath (dotted? front) field.name))) ↔
          target.HasLeaf path ∧ ¬ CutBelow excluded (front ++ [field.name]) path := by
      rw [fieldPath_dotted, ← dotted_snoc]
      exact ih field hf target ht _
    rw [selectionAt_eq, mem_leavesOf_selectionOf]
    constructor
    · rintro ⟨field, hf, hinternal, hkept, hm⟩
      rw [fieldPath_dotted] at hkept
      rcases mem_leavesOf_selectionOfType.1 hm with ⟨kind, ht, rfl⟩ | ⟨target, rest, ht, rfl, hrest⟩
      · refine ⟨.scalar hf hinternal ht, fun hcut => ?_⟩
        exact (cutBelow_cons.1 hcut).elim hkept (not_cutBelow_nil _ _)
      · obtain ⟨hleaf, hbelow⟩ := (hbelow hf ht).1 hrest
        refine ⟨.under hf hinternal ht hleaf, fun hcut => ?_⟩
        exact (cutBelow_cons.1 hcut).elim hkept hbelow
    · rintro ⟨hleaf, hcut⟩
      cases hleaf with
      | @scalar _ field kind hf hinternal ht =>
        rw [cutBelow_cons, not_or, ← fieldPath_dotted] at hcut
        exact ⟨field, hf, hinternal, hcut.1, mem_leavesOf_selectionOfType.2 (.inl ⟨kind, ht, rfl⟩)⟩
      | @under _ target field rest hf hinternal ht hleaf =>
        rw [cutBelow_cons, not_or, ← fieldPath_dotted] at hcut
        have hrest := (hbelow hf ht).2 ⟨hleaf, hcut.2⟩
        exact ⟨field, hf, hinternal, hcut.1,
          mem_leavesOf_selectionOfType.2 (.inr ⟨target, rest, ht, rfl, hrest⟩)⟩

theorem mem_leavesOf_selection {schema : Schema} {path : List String} :
    path ∈ leavesOf (schema.selection excluded) ↔ schema.HasLeaf path ∧ ¬ Cut excluded path := by
  rw [cut_iff_cutBelow]
  exact mem_leavesOf_selectionAt schema []

theorem mem_leavesOf_selection_nil {schema : Schema} {path : List String} :
    path ∈ leavesOf (schema.selection []) ↔ schema.HasLeaf path := by
  rw [mem_leavesOf_selection, and_iff_left (not_cut_nil path)]

instance (schema : Schema) (path : List String) : Decidable (schema.HasLeaf path) :=
  decidable_of_iff _ mem_leavesOf_selection_nil

/-! ## Order, blocks and names -/

theorem name_of_mem_selectionOf {fields : List Field} {above : Option String} {selection : Selection}
    (h : selection ∈ selectionOf excluded fields above) :
    ∃ field ∈ fields, selection.name = field.name := by
  induction fields with
  | nil => simp [selectionOf] at h
  | cons field rest ih =>
    have hrest (h : selection ∈ selectionOf excluded rest above) :
        ∃ other ∈ field :: rest, selection.name = other.name := by
      obtain ⟨other, ho, hname⟩ := ih h
      exact ⟨other, List.mem_cons_of_mem _ ho, hname⟩
    rcases selectionOf_cons_cases excluded field rest above with he | he | ⟨target, -, -, he⟩ <;>
      rw [he] at h
    · exact hrest h
    · rcases List.mem_cons.1 h with rfl | h
      · exact ⟨field, List.mem_cons_self .., rfl⟩
      · exact hrest h
    · rcases List.mem_cons.1 h with rfl | h
      · exact ⟨field, List.mem_cons_self .., rfl⟩
      · exact hrest h

theorem tidy_selectionOf {fields : List Field}
    (hasc : fields.Pairwise fun a b => a.name < b.name)
    (htargets : ∀ field ∈ fields, ∀ target, field.target? = some target → ∀ above,
      Tidy (target.selectionAt excluded above)) (above : Option String) :
    Tidy (selectionOf excluded fields above) := by
  induction fields with
  | nil => simpa [selectionOf] using Tidy.nil
  | cons field rest ih =>
    obtain ⟨hfirst, hasc⟩ := List.pairwise_cons.1 hasc
    have hrest := ih hasc fun other ho => htargets other (List.mem_cons_of_mem _ ho)
    have hlt : ∀ other ∈ selectionOf excluded rest above, field.name < other.name := by
      intro other ho
      obtain ⟨next, hn, hname⟩ := name_of_mem_selectionOf ho
      exact hname ▸ hfirst next hn
    rcases selectionOf_cons_cases excluded field rest above with he | he | ⟨target, ht, hne, he⟩ <;>
      rw [he]
    · exact hrest
    · exact .leaf hlt hrest
    · have htarget := htargets field (List.mem_cons_self ..) target ht
        (some (fieldPath above field.name))
      exact .nested hlt (fun hnone => hne (htarget.eq_nil hnone)) htarget hrest

/-- A frozen schema is read in the order of its names, and in blocks with leaves. -/
theorem tidy_selectionAt {schema : Schema} (frozen : schema.Frozen) (excluded : List String)
    (above : Option String) : Tidy (schema.selectionAt excluded above) := by
  induction schema using Schema.induct generalizing above with
  | step schema ih =>
    rw [selectionAt_eq]
    exact tidy_selectionOf frozen.ascending
      (fun field hf target ht => ih field hf target ht (frozen.target hf ht)) above

theorem named_selectionOf {fields : List Field}
    (hnames : ∀ field ∈ fields, Name.IsGraphQLName field.name)
    (htargets : ∀ field ∈ fields, ∀ target, field.target? = some target → ∀ above,
      ∀ selection ∈ target.selectionAt excluded above, Named selection) (above : Option String) :
    ∀ selection ∈ selectionOf excluded fields above, Named selection := by
  induction fields with
  | nil => simp [selectionOf]
  | cons field rest ih =>
    have hrest := ih (fun other ho => hnames other (List.mem_cons_of_mem _ ho))
      fun other ho => htargets other (List.mem_cons_of_mem _ ho)
    have hname := hnames field (List.mem_cons_self ..)
    rcases selectionOf_cons_cases excluded field rest above with he | he | ⟨target, ht, -, he⟩ <;>
      rw [he]
    · exact hrest
    · exact List.forall_mem_cons.2 ⟨.leaf hname, hrest⟩
    · exact List.forall_mem_cons.2
        ⟨.nested hname (htargets field (List.mem_cons_self ..) target ht _), hrest⟩

/-- The fields of a frozen schema are read under names of GraphQL. -/
theorem named_selectionAt {schema : Schema} (frozen : schema.Frozen) (excluded : List String)
    (above : Option String) : ∀ selection ∈ schema.selectionAt excluded above, Named selection := by
  induction schema using Schema.induct generalizing above with
  | step schema ih =>
    rw [selectionAt_eq]
    exact named_selectionOf
      (fun field hf => ((Name.fieldNameFault_iff field.name).1 (frozen.fieldFault hf)).graphQL)
      (fun field hf target ht => ih field hf target ht (frozen.target hf ht)) above

/-! ## Exclusions -/

theorem selectionOf_congr {other : List String} {fields : List Field}
    (h : ∀ path, path ∈ other ↔ path ∈ excluded)
    (htargets : ∀ field ∈ fields, ∀ target, field.target? = some target → ∀ above,
      target.selectionAt other above = target.selectionAt excluded above) (above : Option String) :
    selectionOf other fields above = selectionOf excluded fields above := by
  induction fields with
  | nil => simp [selectionOf]
  | cons field rest ih =>
    have hrest := ih fun next hn => htargets next (List.mem_cons_of_mem _ hn)
    have htarget := htargets field (List.mem_cons_self ..)
    obtain ⟨name, type, flags, description, owner⟩ := field
    have htype (path : String) :
        selectionOfType other type name path = selectionOfType excluded type name path := by
      cases type with
      | scalar kind => rfl
      | reference target | embedded target =>
        rw [selectionOfType, selectionOfType, htarget target rfl]
    simp only [selectionOf, h, hrest, htype]

/-- Neither the order of exclusions nor their number plays a role. -/
theorem selectionAt_congr {other : List String} (h : ∀ path, path ∈ other ↔ path ∈ excluded)
    (schema : Schema) (above : Option String) :
    schema.selectionAt other above = schema.selectionAt excluded above := by
  induction schema using Schema.induct generalizing above with
  | step schema ih =>
    rw [selectionAt_eq, selectionAt_eq]
    exact selectionOf_congr h ih above

/-! ## Texts -/

theorem parse?_selection {schema : Schema} (frozen : schema.Frozen) (excluded : List String) :
    parse? (listText (schema.selection excluded)) = some (schema.selection excluded) :=
  Selection.parse?_eq_some_iff.2 ⟨rfl, named_selectionAt frozen excluded none⟩

/-- **Leaves.** The text of what a client reads of a frozen schema is read as selections whose leaves
are just the paths of shown names to scalars that no exclusion cuts, each once. At every level the
names ascend, and every block has a leaf. More exclusions leave no other leaves, and neither the order
of exclusions nor their number plays a role. -/
theorem selection_leaves {schema : Schema} (frozen : schema.Frozen) (excluded : List String) :
    ∃ selections, parse? (listText (schema.selection excluded)) = some selections ∧
      (∀ path, path ∈ leavesOf selections ↔ schema.HasLeaf path ∧ ¬ Cut excluded path) ∧
      (leavesOf selections).Nodup ∧ Tidy selections ∧
      (∀ more, excluded ⊆ more → ∃ fewer,
        parse? (listText (schema.selection more)) = some fewer ∧
          leavesOf fewer ⊆ leavesOf selections) ∧
      ∀ other, (∀ path, path ∈ other ↔ path ∈ excluded) →
        listText (schema.selection other) = listText (schema.selection excluded) := by
  have htidy : Tidy (schema.selection excluded) := tidy_selectionAt frozen excluded none
  refine ⟨schema.selection excluded, parse?_selection frozen excluded,
    fun _ => mem_leavesOf_selection, htidy.nodup, htidy, ?_, ?_⟩
  · intro more hsub
    refine ⟨schema.selection more, parse?_selection frozen more, fun path hm => ?_⟩
    obtain ⟨hleaf, hcut⟩ := mem_leavesOf_selection.1 hm
    exact mem_leavesOf_selection.2 ⟨hleaf, fun h => hcut (h.mono hsub)⟩
  · intro other h
    exact congrArg listText (selectionAt_congr h schema none)

open Sample in
/-- Of a report without its texts and its categories, the notes of the workflow are read. -/
theorem selection_leaves_sample : ∃ selections,
    parse? (listText (report.selection ["remarks.about.category", "remarks.text"]))
      = some selections ∧ Tidy selections ∧
    ["remarks", "about", "steps", "detail", "note"] ∈ leavesOf selections ∧
    ["remarks", "about", "category", "label"] ∉ leavesOf selections := by
  obtain ⟨selections, hread, hleaves, -, htidy, -⟩ :=
    selection_leaves report_frozen ["remarks.about.category", "remarks.text"]
  refine ⟨selections, hread, htidy, (hleaves _).2 ⟨by decide, by decide⟩, fun hm => ?_⟩
  exact ((hleaves _).1 hm).2 (by decide)

end Schema

end EntityModel
