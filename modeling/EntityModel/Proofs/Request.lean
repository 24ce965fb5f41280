import EntityModel.Proofs.Operation
import EntityModel.Proofs.Sdl.Expansion
import EntityModel.Proofs.Selection.Leaves

/-!
# Braces in requests

GraphQL has no empty selections. What a client reads of a schema has none at any level, but a request
writes the block of the documents whether or not anything is left to read of them.

Results:
* `filled_append`, `filled_append_of_not_mem`: pieces of a text are filled by themselves.
* `filled_listText`: what is read of a schema is filled.
* `Invocation.filled_iff`, `requests_filled`: when a request is.
-/
namespace EntityModel

open Name (startsIdent)
open Selection (leavesOf listText Tidy Named)

/-- The text starts as a name does. -/
def StartsName (cs : List Char) : Prop := ∃ c rest, cs = c :: rest ∧ startsIdent c = true

/-- Behind every opening brace of the text the name of a field starts. -/
def Filled (cs : List Char) : Prop := ∀ front back, cs = front ++ '\x7b' :: back → StartsName back

/-! ## Pieces of text -/

theorem filled_nil : Filled [] := by
  intro front back h
  simp at h

theorem filled_cons {c : Char} {cs : List Char} :
    Filled (c :: cs) ↔ (c = '\x7b' → StartsName cs) ∧ Filled cs := by
  constructor
  · intro h
    refine ⟨?_, fun front back hcs => h (c :: front) back (by rw [hcs, List.cons_append])⟩
    rintro rfl
    exact h [] cs rfl
  · rintro ⟨hc, hcs⟩ front back he
    cases front with
    | nil =>
      obtain ⟨rfl, rfl⟩ := List.cons.inj he
      exact hc rfl
    | cons d front =>
      obtain ⟨-, he⟩ := List.cons.inj he
      exact hcs front back he

theorem filled_brace {cs : List Char} : Filled ('\x7b' :: cs) ↔ StartsName cs ∧ Filled cs := by
  simp only [filled_cons, true_imp_iff]

/-- A text without braces plays no role in front of another. -/
theorem filled_append_of_not_mem {xs ys : List Char} (h : '\x7b' ∉ xs) :
    Filled (xs ++ ys) ↔ Filled ys := by
  induction xs with
  | nil => rfl
  | cons x xs ih =>
    obtain ⟨hx, hxs⟩ := List.ne_and_not_mem_of_not_mem_cons h
    rw [List.cons_append, filled_cons, ih hxs]
    exact and_iff_right fun he => absurd he.symm hx

theorem filled_of_not_mem {cs : List Char} (h : '\x7b' ∉ cs) : Filled cs := by
  rintro front back rfl
  exact absurd (by simp) h

/-- A text is filled by itself when none that starts as a name stands behind it. -/
theorem filled_append {xs ys : List Char} (h : ¬ StartsName ys) :
    Filled (xs ++ ys) ↔ Filled xs ∧ Filled ys := by
  induction xs with
  | nil => simp [filled_nil]
  | cons x xs ih =>
    have hstarts : StartsName (xs ++ ys) ↔ StartsName xs := by
      cases xs with
      | nil => exact iff_of_false h (by rintro ⟨c, rest, ⟨⟩, -⟩)
      | cons y xs => simp [StartsName]
    rw [List.cons_append, filled_cons, filled_cons, ih, hstarts, and_assoc]

theorem startsName_append {xs ys : List Char} (h : StartsName xs) : StartsName (xs ++ ys) := by
  obtain ⟨c, rest, rfl, hc⟩ := h
  exact ⟨c, rest ++ ys, rfl, hc⟩

theorem not_startsName_cons {c : Char} {cs : List Char} (h : startsIdent c = false) :
    ¬ StartsName (c :: cs) := by
  rintro ⟨d, rest, he, hd⟩
  obtain ⟨rfl, -⟩ := List.cons.inj he
  rw [h] at hd
  cases hd

/-! ## Selections -/

theorem brace_not_mem {name : String} (h : Name.IsGraphQLName name) : '\x7b' ∉ name.toList := by
  obtain ⟨first, rest, hname, hfirst, hrest⟩ := h
  rw [hname]
  intro hm
  rcases List.mem_cons.1 hm with rfl | hm
  · exact absurd hfirst (by decide)
  · exact absurd (hrest _ hm) (by decide)

/-- The text of well-named selections starts with a name when there is one. -/
theorem startsName_listText_iff {selections : List Selection}
    (hnamed : ∀ selection ∈ selections, Named selection) (rest : List Char) :
    StartsName ((listText selections).toList ++ '\x7d' :: rest) ↔ selections ≠ [] := by
  cases selections with
  | nil => exact iff_of_false (not_startsName_cons rfl) (by simp)
  | cons first more =>
    obtain ⟨c, back, htext, hc⟩ := Selection.listText_head (hnamed first (List.mem_cons_self ..)) more
    exact iff_of_true ⟨c, _, by rw [htext, List.cons_append], hc⟩ (List.cons_ne_nil _ _)

/-- The text of a list of selections is filled when those of its fields are. -/
theorem filled_listText_cons {first : Selection} {more : List Selection}
    (hfirst : Filled first.text.toList) (hmore : Filled (listText more).toList) :
    Filled (listText (first :: more)).toList := by
  cases more with
  | nil => rwa [Selection.listText_singleton]
  | cons next more =>
    rw [Selection.toList_listText_cons first (List.cons_ne_nil _ _),
      filled_append (not_startsName_cons rfl), filled_cons]
    exact ⟨hfirst, fun he => absurd he (by decide), hmore⟩

/-- Where every block has a leaf, every brace has a name behind it. -/
theorem filled_listText {selections : List Selection} (h : Tidy selections)
    (hnamed : ∀ selection ∈ selections, Named selection) :
    Filled (listText selections).toList := by
  induction h with
  | nil => exact filled_nil
  | @leaf name rest _ _ ih =>
    obtain ⟨hfirst, hrest⟩ := List.forall_mem_cons.1 hnamed
    refine filled_listText_cons ?_ (ih hrest)
    rw [Selection.text]
    exact filled_of_not_mem (brace_not_mem hfirst.name)
  | @nested name children rest _ hne htidy _ ihchildren ih =>
    obtain ⟨hfirst, hrest⟩ := List.forall_mem_cons.1 hnamed
    refine filled_listText_cons ?_ (ih hrest)
    cases hfirst with
    | nested hname hchildren =>
      have hsome : children ≠ [] := by
        rintro rfl
        exact hne rfl
      rw [Selection.toList_nested, filled_append_of_not_mem (brace_not_mem hname), filled_cons,
        filled_brace, startsName_listText_iff hchildren, filled_append (not_startsName_cons rfl)]
      exact ⟨fun he => absurd he (by decide), hsome, ihchildren hchildren,
        filled_of_not_mem (by decide)⟩

/-! ## Requests -/

/-- The braces in the text of a query: around the operation, around the page, and around the
documents. -/
theorem Invocation.toList_text {operation : Operation} (hquery : operation.isQuery = true)
    (schema : Schema) (excluded : List String) :
    ∃ front back : List Char, '\x7b' ∉ front ∧ '\x7b' ∉ back ∧
      (ofOperation operation schema excluded).text.toList = front ++ '\x7b' ::
        ((operation.nameOn schema).toList ++ '(' :: (back ++ '\x7b' :: ("data ".toList ++ '\x7b' ::
          ((listText (schema.selection excluded)).toList
            ++ '\x7d' :: "\ncount\ntotalCount\x7d\x7d".toList)))) := by
  cases operation with
  | insert | update | delete => cases hquery
  | getOne =>
    refine ⟨"query($id:String!)".toList, "id: $id)".toList, by decide, by decide, ?_⟩
    rw [text_ofOperation]
    simp [pageText, Operation.argumentOn, Operation.isQuery, TypeRef.text]
  | getMany =>
    refine ⟨"query($q:QueryModifier)".toList, "q: $q)".toList, by decide, by decide, ?_⟩
    rw [text_ofOperation]
    simp [pageText, Operation.argumentOn, Operation.isQuery, TypeRef.text]

theorem Operation.startsName_nameOn (operation : Operation) (schema : Schema) (rest : List Char) :
    StartsName ((operation.nameOn schema).toList ++ rest) := by
  have hverb : StartsName operation.verb.toList := by
    cases operation <;> exact ⟨_, _, rfl, rfl⟩
  obtain ⟨word, hname⟩ : ∃ word, operation.nameOn schema = operation.verb ++ word := by
    cases operation <;> exact ⟨_, rfl⟩
  rw [hname, String.toList_append, List.append_assoc]
  exact startsName_append hverb

/-- The text that invokes a query is filled when its name is and something is left to read. -/
theorem Invocation.filled_iff (operation : Operation) (hquery : operation.isQuery = true)
    {schema : Schema} (frozen : schema.Frozen) (excluded : List String) :
    Filled (ofOperation operation schema excluded).text.toList ↔
      Filled (operation.nameOn schema).toList ∧ schema.selection excluded ≠ [] := by
  obtain ⟨front, back, hfront, hback, htext⟩ := toList_text hquery schema excluded
  have hnamed : ∀ selection ∈ schema.selection excluded, Named selection :=
    Schema.named_selectionAt frozen excluded none
  have hselection : Filled (listText (schema.selection excluded)).toList :=
    filled_listText (Schema.tidy_selectionAt frozen excluded none) hnamed
  have hname (rest : List Char) : StartsName ((operation.nameOn schema).toList ++ rest) :=
    operation.startsName_nameOn schema rest
  have hdata (rest : List Char) : StartsName ("data ".toList ++ rest) := ⟨'d', _, rfl, rfl⟩
  have hopen : '\x7b' ∉ '(' :: back := by simpa using hback
  have hdataOpen : '\x7b' ∉ "data ".toList := by decide
  have hrest : Filled (listText (schema.selection excluded)).toList ∧
      Filled ('\x7d' :: "\ncount\ntotalCount\x7d\x7d".toList) :=
    ⟨hselection, filled_of_not_mem (by decide)⟩
  rw [htext, filled_append_of_not_mem hfront, filled_brace, and_iff_right (hname _),
    filled_append (not_startsName_cons rfl), ← List.cons_append, filled_append_of_not_mem hopen,
    filled_brace, and_iff_right (hdata _), filled_append_of_not_mem hdataOpen, filled_brace,
    startsName_listText_iff hnamed, filled_append (not_startsName_cons rfl),
    and_iff_left hrest]

/-- Something is left to read when the exclusions do not cut every leaf. -/
theorem Schema.selection_ne_nil_iff {schema : Schema} (frozen : schema.Frozen)
    {excluded : List String} :
    schema.selection excluded ≠ [] ↔ ∃ path, schema.HasLeaf path ∧ ¬ Cut excluded path := by
  have htidy : Tidy (schema.selection excluded) := tidy_selectionAt frozen excluded none
  simp only [← mem_leavesOf_selection]
  constructor
  · intro hne
    exact List.exists_mem_of_ne_nil _ fun hnone => hne (htidy.eq_nil hnone)
  · rintro ⟨path, hm⟩ hnil
    rw [hnil] at hm
    cases hm

/-- An entity of a document whose references lead to entities has something to read. -/
theorem Sdl.exists_leaf {catalog : Catalog} {doc : List Block}
    (frozen : ∀ schema ∈ catalog.schemas, schema.Frozen)
    (references : ∀ schema ∈ catalog.schemas, ReferencesEntities schema)
    (h : document catalog {} = .ok doc) {entity : Schema} (he : entity ∈ catalog.entities) :
    ∃ path, entity.HasLeaf path := by
  obtain ⟨parts, blocks, hplan, hparts, hdoc⟩ := document_plan frozen h
  have hread := hplan.expands frozen references hparts hdoc ((hparts _).2 (.own .output he)) rfl
  obtain ⟨path, hleaf, -⟩ :=
    (Schema.selection_ne_nil_iff (frozen_entities frozen entity he)).1 (hread none).2
  exact ⟨path, hleaf⟩

/-- **Braces.** A request to read documents of an entity has the name of a field behind every opening
brace exactly when the name that it puts behind the verb has, and the exclusions do not cut every
leaf: the block of the documents is written also when it is empty, the blocks in it never are. When
every reference leads to an entity and the document of the catalog is written, each entity has a leaf,
to be cut or not. -/
theorem requests_filled {catalog : Catalog} {doc : List Sdl.Block}
    (frozen : ∀ schema ∈ catalog.schemas, schema.Frozen)
    (h : Sdl.document catalog {} = .ok doc) : ∀ entity ∈ catalog.entities,
      (∀ excluded id, Filled (Request.getOne entity id excluded).query.toList ↔
        Filled entity.name.toList ∧ ∃ path, entity.HasLeaf path ∧ ¬ Cut excluded path) ∧
      (∀ excluded query, Filled (Request.getMany entity query excluded).query.toList ↔
        Filled entity.pluralName.toList ∧ ∃ path, entity.HasLeaf path ∧ ¬ Cut excluded path) ∧
      ((∀ schema ∈ catalog.schemas, Sdl.ReferencesEntities schema) →
        ∃ path, entity.HasLeaf path) := by
  intro entity he
  have hentity := Sdl.frozen_entities frozen entity he
  have hverb (operation : Operation) (word : String) :
      Filled (operation.verb ++ word).toList ↔ Filled word.toList := by
    rw [String.toList_append]
    exact filled_append_of_not_mem (by cases operation <;> decide)
  refine ⟨fun excluded id => ?_, fun excluded query => ?_, fun references =>
    Sdl.exists_leaf frozen references h he⟩
  · have hname : Operation.getOne.nameOn entity = Operation.getOne.verb ++ entity.name := rfl
    rw [Request.getOne, Request.ofInvocation, Invocation.filled_iff _ rfl hentity, hname, hverb,
      Schema.selection_ne_nil_iff hentity]
  · have hname : Operation.getMany.nameOn entity = Operation.getMany.verb ++ entity.pluralName := rfl
    rw [Request.getMany, Request.ofInvocation, Invocation.filled_iff _ rfl hentity, hname, hverb,
      Schema.selection_ne_nil_iff hentity]

namespace Schema.Sample

/-- Without the one who created it, a category is asked for by its label. -/
theorem category_requested : ∃ doc, Sdl.document catalog {} = .ok doc ∧
    Filled (Request.getOne category "id1" ["createdBy"]).query.toList := by
  obtain ⟨doc, hdoc⟩ := Sdl.document_sample
  refine ⟨doc, hdoc, ((requests_filled schemas_frozen hdoc category (by decide)).1 _ _).2 ?_⟩
  exact ⟨filled_of_not_mem (by decide), ["label"], by decide, by decide⟩

/-- Without its label too, it is asked for nothing, in braces. -/
theorem category_requested_bare : (∃ doc, Sdl.document catalog {} = .ok doc) ∧
    category ∈ catalog.entities ∧ (∀ schema ∈ catalog.schemas, schema.Frozen) ∧
    ¬ Filled (Request.getOne category "id1" ["createdBy", "label"]).query.toList ∧
    ¬ Filled (Request.getMany category {} ["createdBy", "label"]).query.toList := by
  have hnone : category.selection ["createdBy", "label"] = [] := rfl
  refine ⟨Sdl.document_sample, by decide, schemas_frozen, fun h => ?_, fun h => ?_⟩
  · exact ((Invocation.filled_iff .getOne rfl category_frozen _).1 h).2 hnone
  · exact ((Invocation.filled_iff .getMany rfl category_frozen _).1 h).2 hnone

end Schema.Sample

end EntityModel
