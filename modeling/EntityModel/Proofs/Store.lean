import EntityModel.Proofs.Keyed
import EntityModel.Store

/-!
# Documents in the store

What each operation of the store does to the documents of a schema, and what a query for one id
finds among documents that carry the ids they are filed under.

Results:
* `collection_setCollection_self`, `collection_setCollection_of_ne`: documents of one schema are
  replaced, and those of the others kept.
* `find_finds`, `add_finds`, `update_finds`, `delete_finds`: queries are noted, and nothing else.
* `idText_injective`: numbers have different ids.
* `matching_id`: a filter on the id finds just the document filed under it.
* `pageOf_eq_allOf`: when a page holds all documents.
-/
namespace EntityModel

namespace Store

variable {store : Store} {schema : String}

/-! ## Collections -/

@[simp] theorem collection_setCollection_self (store : Store) (schema : String)
    (documents : Keyed Members) :
    (store.setCollection schema documents).collection schema = documents := by
  simp [collection, setCollection, Keyed.get?_insert_self]

theorem collection_setCollection_of_ne {other : String} (h : other ≠ schema) (store : Store)
    (documents : Keyed Members) :
    (store.setCollection schema documents).collection other = store.collection other := by
  simp [collection, setCollection, Keyed.get?_insert_of_ne h]

@[simp] theorem setCollection_issued (store : Store) (schema : String)
    (documents : Keyed Members) : (store.setCollection schema documents).issued = store.issued := rfl

@[simp] theorem setCollection_poisoned (store : Store) (schema : String)
    (documents : Keyed Members) :
    (store.setCollection schema documents).poisoned = store.poisoned := rfl

theorem collection_congr {other : Store} (h : store.collections = other.collections)
    (schema : String) : store.collection schema = other.collection schema := by
  rw [collection, collection, h]

/-- The store takes note of every query. -/
theorem find_finds (store : Store) (schema : String) (query : FindQuery) (joins : List Join) :
    (store.find schema query joins).2.finds = store.finds ++ [⟨schema, query, joins⟩] := by
  unfold find
  simp only
  split <;> rfl

theorem add_finds (store : Store) (schema : String) (document : Members) :
    (store.add schema document).2.finds = store.finds := by
  unfold add
  simp only
  split <;> rfl

theorem update_finds (store : Store) (schema : String) (document : Members) :
    (store.update schema document).2.finds = store.finds := by
  unfold update
  split
  · rfl
  · split
    · rfl
    · split <;> rfl

theorem delete_finds (store : Store) (schema id : String) :
    (store.delete schema id).2.finds = store.finds := by
  unfold delete
  split
  · rfl
  · split <;> rfl

/-! ## Ids -/

theorem idText_injective {m n : Nat} (h : idText m = idText n) : m = n := by
  simp only [idText, String.ofList_inj, List.cons.injEq, true_and] at h
  rw [← Nat.ofDigitChars_ten_toDigits (n := m), h, Nat.ofDigitChars_ten_toDigits]

/-- The documents carry the ids that they are filed under. -/
def Labelled (documents : Keyed Members) : Prop :=
  ∀ id document, Keyed.get? id documents = some document →
    Keyed.get? idKey document = some (.str id)

theorem Labelled.insert {documents : Keyed Members} (hl : Labelled documents) {id : String}
    {document : Members} (hd : Keyed.get? idKey document = some (.str id)) :
    Labelled (Keyed.insert id document documents) := by
  intro other found h
  by_cases ho : other = id
  · subst ho
    rw [Keyed.get?_insert_self] at h
    cases h
    exact hd
  · rw [Keyed.get?_insert_of_ne ho] at h
    exact hl other found h

theorem Labelled.erase {documents : Keyed Members} (hl : Labelled documents)
    (ha : Keyed.Ascending documents) (id : String) : Labelled (Keyed.erase id documents) := by
  intro other found h
  by_cases ho : other = id
  · subst ho
    rw [Keyed.get?_erase_self ha] at h
    cases h
  · rw [Keyed.get?_erase_of_ne ho] at h
    exact hl other found h

/-- Of labelled documents a filter on the id lets through just the one filed under it. -/
theorem matching_id (ha : Keyed.Ascending (store.collection schema))
    (hl : Labelled (store.collection schema)) (id : String) :
    store.matching schema [(idKey, .str id)]
      = (Keyed.get? id (store.collection schema)).toList := by
  have hmatch : ∀ entry ∈ store.collection schema,
      isMatch [(idKey, .str id)] entry.2 = (entry.1 == id) := by
    intro ⟨key, document⟩ hm
    simp [isMatch, hl key document ((Keyed.get?_eq_some_iff ha).2 hm), Json.same]
  rw [matching, List.filter_map, List.filter_congr (q := (·.1 == id)) hmatch, Keyed.filter_key ha]
  cases Keyed.get? id (store.collection schema) <;> rfl

/-! ## Pages -/

/-- The page of all these documents. -/
def allOf (documents : List Members) : Page where
  data := documents.map Json.obj
  count := documents.length.toUInt64
  totalCount := some documents.length.toUInt64

/-- A query that skips none and does not stop early finds everything. -/
theorem pageOf_eq_allOf {query : FindQuery} {documents : List Members} (hskip : query.skip = 0)
    (htop : query.top = 0 ∨ documents.length ≤ query.top.toNat) :
    pageOf query documents = allOf documents := by
  have htake : (if query.top = 0 then documents else documents.take query.top.toNat) = documents := by
    split
    · rfl
    · next hne => exact List.take_of_length_le (htop.resolve_left hne)
  simp [pageOf, allOf, hskip, htake]

theorem find_answer (hp : store.poisoned = false) (schema : String) (query : FindQuery)
    (joins : List Join) :
    (store.find schema query joins).1 = .ok (pageOf query (store.matching schema query.filter)) := by
  simp [find, hp, matching, collection]

theorem matching_nil (store : Store) (schema : String) :
    store.matching schema [] = (store.collection schema).map Prod.snd := by
  simp [matching, isMatch]

end Store

end EntityModel
