import EntityModel.Proofs.Catalog.Acceptance
import EntityModel.Proofs.Name
import EntityModel.Proofs.Text.Case

/-!
# Looking schemas up

A catalog finds the first schema with a name up to case. An index of positions would keep the last
one instead. Keys differ in a catalog, so both are the only one, and names are ASCII, so neither
depends on how a text outside ASCII is lower-cased.

Results:
* `Schema.answersTo_iff`, `Schema.answersTo_iff_spells`: the names that a schema has up to case.
* `get?_positions`: what the index holds when keys differ.
* `Catalog.find_eq_ok_iff_answersTo`, `Catalog.find_eq_ok_iff_positions`: what is found is what
  answers to the name, and what the index points at.
* `Catalog.find_eq_error_iff`: what is not found.
* `Catalog.find_registered`: what a catalog finds.
-/
namespace EntityModel

variable {isFinal : List Char → List Char → Bool}

/-- The name is the schema's when case is ignored. -/
def Schema.AnswersTo (isFinal : List Char → List Char → Bool) (schema : Schema) (name : String) :
    Prop :=
  Text.lowerWith isFinal name = Text.lowerWith isFinal schema.name

namespace Schema

instance (schema : Schema) (name : String) : Decidable (schema.AnswersTo isFinal name) :=
  inferInstanceAs (Decidable (Text.lowerWith isFinal name = Text.lowerWith isFinal schema.name))

theorem Frozen.ascii {schema : Schema} (h : schema.Frozen) : Text.Ascii schema.name.toList :=
  ((Name.schemaNameFault_iff _).1 h.nameFault).ascii

theorem answersTo_iff {schema : Schema} (h : schema.Frozen) {name : String} :
    schema.AnswersTo isFinal name ↔ lookupKey schema.name = lookupKey name := by
  rw [AnswersTo, Text.lowerWith_eq_iff isFinal h.ascii]
  exact eq_comm

/-- A schema has the names that spell its own. -/
theorem answersTo_iff_spells {schema : Schema} (h : schema.Frozen) {name : String} :
    schema.AnswersTo isFinal name ↔ List.Forall₂ Text.Spells name.toList schema.name.toList := by
  rw [AnswersTo, Text.lowerWith_eq_iff isFinal h.ascii, Text.lower_eq_iff_spells h.ascii]

end Schema

/-! ## Positions -/

/-- The position of every schema under the key of its name; of two with one key the later counts. -/
def positions (key : String → String) (schemas : List Schema) : Keyed Nat :=
  Keyed.ofList (schemas.zipIdx.map fun (schema, i) => (key schema.name, i))

theorem get?_positions {key : String → String} {schemas : List Schema}
    (hk : schemas.Pairwise fun a b => key a.name ≠ key b.name) {text : String} {i : Nat} :
    Keyed.get? text (positions key schemas) = some i ↔
      ∃ schema, schemas[i]? = some schema ∧ key schema.name = text := by
  have hkeys : Keyed.keys (schemas.zipIdx.map fun (schema, i) => (key schema.name, i))
      = schemas.map fun schema => key schema.name := by
    have hfirst : (schemas.zipIdx.map Prod.fst).map (fun schema => key schema.name)
        = schemas.map fun schema => key schema.name := by rw [List.zipIdx_map_fst]
    rw [← hfirst, Keyed.keys, List.map_map, List.map_map]
    rfl
  have hnodup : (schemas.map fun schema => key schema.name).Nodup := List.pairwise_map.2 hk
  rw [positions, Keyed.get?_eq_some_iff (Keyed.ascending_ofList _), Keyed.mem_ofList (hkeys ▸ hnodup)]
  simp only [List.mem_map, Prod.exists, Prod.mk.injEq, List.mem_zipIdx_iff_getElem?]
  constructor
  · rintro ⟨schema, j, hj, hkey, rfl⟩
    exact ⟨schema, hj, hkey⟩
  · rintro ⟨schema, hi, hkey⟩
    exact ⟨schema, i, hi, hkey, rfl⟩

/-- When keys differ, a schema stands at one position. -/
theorem KeysDiffer.eq_of_getElem? {schemas : List Schema} (hk : KeysDiffer schemas) {i j : Nat}
    {a b : Schema} (hi : schemas[i]? = some a) (hj : schemas[j]? = some b)
    (he : lookupKey a.name = lookupKey b.name) : i = j := by
  have hab : a = b := hk.eq_of_key_eq (List.mem_of_getElem? hi) (List.mem_of_getElem? hj) he
  obtain ⟨hlt, -⟩ := List.getElem?_eq_some_iff.1 hi
  exact (List.getElem?_inj hlt hk.nodup).1 (by rw [hi, hj, hab])

/-! ## Catalogs -/

namespace Catalog

variable {catalog : Catalog}

theorem find_cases (catalog : Catalog) (name : String) :
    (∃ schema, catalog.find name = .ok schema) ∨
      catalog.find name = .error (.unknownSchema name) := by
  unfold find
  simp only
  split
  · exact .inl ⟨_, rfl⟩
  · exact .inr rfl

/-- What is not found is reported under the name that was asked for. -/
theorem find_eq_error_iff {name : String} {cause : CatalogError} :
    catalog.find name = .error cause ↔ cause = .unknownSchema name ∧
      ∀ schema ∈ catalog.schemas, lookupKey schema.name ≠ lookupKey name := by
  rcases catalog.find_cases name with ⟨schema, h⟩ | h
  · obtain ⟨hm, hkey⟩ := find_eq_ok_iff.1 h
    simp only [h, reduceCtorEq, false_iff, not_and]
    intro _ hnone
    exact hnone schema hm hkey
  · rw [h, Except.error.injEq]
    constructor
    · rintro rfl
      refine ⟨rfl, fun schema hm hkey => ?_⟩
      rw [find_eq_ok_iff.2 ⟨hm, hkey⟩] at h
      cases h
    · rintro ⟨rfl, -⟩
      rfl

/-- What is found stands somewhere, and answers to the name. -/
theorem find_eq_ok_iff_answersTo (frozen : ∀ schema ∈ catalog.schemas, schema.Frozen)
    (isFinal : List Char → List Char → Bool) {name : String} {schema : Schema} :
    catalog.find name = .ok schema ↔
      ∃ i : Nat, catalog.schemas[i]? = some schema ∧ schema.AnswersTo isFinal name := by
  rw [find_eq_ok_iff, exists_and_right, ← List.mem_iff_getElem?]
  exact and_congr_right fun hm => (Schema.answersTo_iff (frozen _ hm)).symm

/-- One position answers to a name. -/
theorem eq_of_answersTo (frozen : ∀ schema ∈ catalog.schemas, schema.Frozen) {name : String}
    {i j : Nat} {a b : Schema} (hi : catalog.schemas[i]? = some a)
    (hj : catalog.schemas[j]? = some b) (ha : a.AnswersTo isFinal name)
    (hb : b.AnswersTo isFinal name) : i = j := by
  have hkeya := (Schema.answersTo_iff (frozen _ (List.mem_of_getElem? hi))).1 ha
  have hkeyb := (Schema.answersTo_iff (frozen _ (List.mem_of_getElem? hj))).1 hb
  exact catalog.keysDiffer.eq_of_getElem? hi hj (hkeya.trans hkeyb.symm)

/-- The index is made with the full lower-casing. Keys differ under it too, as names are ASCII. -/
theorem find_eq_ok_iff_positions (frozen : ∀ schema ∈ catalog.schemas, schema.Frozen)
    (isFinal : List Char → List Char → Bool) {name : String} {schema : Schema} :
    catalog.find name = .ok schema ↔ ∃ i : Nat,
      Keyed.get? (Text.lowerWith isFinal name) (positions (Text.lowerWith isFinal) catalog.schemas)
        = some i ∧ catalog.schemas[i]? = some schema := by
  have hk : catalog.schemas.Pairwise fun a b =>
      Text.lowerWith isFinal a.name ≠ Text.lowerWith isFinal b.name := by
    refine catalog.keysDiffer.imp_of_mem fun {a b} ha _ hne he => ?_
    exact hne ((Schema.answersTo_iff (frozen _ ha)).1 he.symm)
  rw [find_eq_ok_iff_answersTo frozen isFinal]
  simp only [get?_positions hk, Schema.AnswersTo]
  constructor
  · rintro ⟨i, hi, he⟩
    exact ⟨i, ⟨schema, hi, he.symm⟩, hi⟩
  · rintro ⟨i, ⟨other, hother, he⟩, hi⟩
    obtain rfl := Option.some.inj (hother.symm.trans hi)
    exact ⟨i, hi, he.symm⟩

/-- **Look-up.** A catalog keeps its schemas where they were registered. Whatever tells where a word
ends, it finds the schema that has the name up to case, which stands at one position only, and this
is the one that an index of positions has for the name. It finds none exactly when there is none. So
a schema is found under the spellings of its name, and under nothing else. -/
theorem find_registered {schemas : List Schema} (frozen : ∀ schema ∈ schemas, schema.Frozen)
    (accepted : ofSchemas schemas = .ok catalog) (isFinal : List Char → List Char → Bool) :
    catalog.schemas = schemas ∧
    (∀ name schema, catalog.find name = .ok schema ↔
      ∃ i : Nat, schemas[i]? = some schema ∧ schema.AnswersTo isFinal name) ∧
    (∀ name (i j : Nat) (a b : Schema), schemas[i]? = some a → schemas[j]? = some b →
      a.AnswersTo isFinal name → b.AnswersTo isFinal name → i = j) ∧
    (∀ name schema, catalog.find name = .ok schema ↔
      ∃ i : Nat, Keyed.get? (Text.lowerWith isFinal name) (positions (Text.lowerWith isFinal) schemas)
        = some i ∧ schemas[i]? = some schema) ∧
    (∀ name cause, catalog.find name = .error cause ↔
      cause = .unknownSchema name ∧ ∀ schema ∈ schemas, ¬ schema.AnswersTo isFinal name) ∧
    ∀ schema ∈ schemas, ∀ name, catalog.find name = .ok schema ↔
      List.Forall₂ Text.Spells name.toList schema.name.toList := by
  obtain rfl := ofSchemas_schemas accepted
  refine ⟨rfl, fun name schema => find_eq_ok_iff_answersTo frozen isFinal,
    fun name i j a b hi hj => eq_of_answersTo frozen hi hj,
    fun name schema => find_eq_ok_iff_positions frozen isFinal, ?_, ?_⟩
  · intro name cause
    rw [find_eq_error_iff]
    refine and_congr_right fun _ => ?_
    exact forall₂_congr fun schema hm => not_congr (Schema.answersTo_iff (frozen _ hm)).symm
  · intro schema hm name
    have hspells : schema.AnswersTo isFinal name ↔ _ := Schema.answersTo_iff_spells (frozen schema hm)
    rw [find_eq_ok_iff, ← Schema.answersTo_iff (frozen _ hm), hspells]
    exact and_iff_right hm

/-- With the Kelvin sign in it the name of the workflows is still theirs, and they are second. -/
theorem find_registered_kelvin : ofSchemas Schema.Sample.schemas = .ok Schema.Sample.catalog ∧
    Schema.Sample.catalog.find "wor\u212aFLOW" = .ok Schema.Sample.workflow ∧
    Schema.Sample.schemas[1]? = some Schema.Sample.workflow ∧
    Schema.Sample.catalog.find "workflows" = .error (.unknownSchema "workflows") := by
  have accepted : ofSchemas Schema.Sample.schemas = .ok Schema.Sample.catalog := rfl
  obtain ⟨-, -, -, -, herror, hspells⟩ :=
    find_registered Schema.Sample.schemas_frozen accepted fun _ _ => true
  refine ⟨accepted, ?_, rfl, ?_⟩
  · exact (hspells Schema.Sample.workflow (by decide) _).2 (by decide)
  · exact (herror _ _).2 ⟨rfl, by decide⟩

end Catalog

end EntityModel
