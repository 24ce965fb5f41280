import EntityModel.Proofs.Service.Session
import EntityModel.Request

/-!
# Deleting what was read

A client that has read a document asks for its deletion by the id that it finds in it, under the
key that the entity declares. There is such a request only where the key holds a text or a number.
The store files documents under ids of its own, and writes these into them as `_id`. A request that
names the id under which a document is filed takes out this document and no other, and for entities
that are identified by `_id` every request does.

Results:
* `mem_collection_of_getMany`: what is read of an entity is filed in the store.
* `run_delete_of_has`, `run_delete_of_not_has`: what comes of a request for an id.
* `deletes_iff`: the one document that a request takes out.
* `deletes_read`: what can be read can be deleted, where it has an id and this is the store's.
-/
namespace EntityModel

/-! ## Losing one document -/

namespace Store

/-- From `before` to `after`, just the document of a schema that is filed under the id is lost. -/
structure Loses (before after : Store) (schema id : String) : Prop where
  had : Keyed.has id (before.collection schema) = true
  gone : Keyed.get? id (after.collection schema) = none
  kept : ∀ other, other ≠ id →
    Keyed.get? other (after.collection schema) = Keyed.get? other (before.collection schema)
  others : ∀ name, name ≠ schema → after.collection name = before.collection name

theorem Loses.eq {before after : Store} {schema id id' : String} (h : before.Loses after schema id)
    (h' : before.Loses after schema id') : id = id' := by
  refine Decidable.byContradiction fun hne => ?_
  have hgone := h.gone
  rw [h'.kept id hne] at hgone
  have hhad := h.had
  rw [Keyed.has, hgone] at hhad
  cases hhad

theorem loses_erase {store : Store} {schema id : String}
    (ha : Keyed.Ascending (store.collection schema))
    (h : Keyed.has id (store.collection schema) = true) :
    store.Loses (store.setCollection schema (Keyed.erase id (store.collection schema))) schema id where
  had := h
  gone := by rw [collection_setCollection_self]; exact Keyed.get?_erase_self ha id
  kept other ho := by rw [collection_setCollection_self]; exact Keyed.get?_erase_of_ne ho _
  others _ hn := collection_setCollection_of_ne hn ..

/-- A document on a page is one of those that the page is cut out of. -/
theorem mem_of_mem_pageOf {query : FindQuery} {documents : List Members} {value : Json}
    (h : value ∈ (pageOf query documents).data) : ∃ document ∈ documents, value = .obj document := by
  obtain ⟨document, hd, rfl⟩ := List.mem_map.1 h
  refine ⟨document, ?_, rfl⟩
  split at hd
  · exact List.mem_of_mem_drop hd
  · exact List.mem_of_mem_drop (List.mem_of_mem_take hd)

end Store

/-- The documents of a page are what its JSON form has under `data`. -/
theorem Page.toJson_data (page : Page) :
    ∃ answer, page.toJson = .obj answer ∧ Keyed.get? "data" answer = some (.arr page.data) := by
  refine ⟨_, rfl, ?_⟩
  rw [Keyed.get?_ofList]
  cases page.totalCount <;> rfl

/-! ## Requests for an id -/

namespace Service

variable {catalog : Catalog} {schema : Schema} {store : Store}

/-- What is read of an entity is filed in the store. -/
theorem mem_collection_of_getMany (hp : store.poisoned = false) {args : Args} {answer : Members}
    {data : List Json} (h : (runOn schema .getMany args store).1 = .ok (.obj answer))
    (hd : Keyed.get? "data" answer = some (.arr data)) {value : Json} (hv : value ∈ data) :
    ∃ id document, value = .obj document ∧ (id, document) ∈ store.collection schema.name := by
  cases hq : queryOf args with
  | error cause => simp [runOn, hq] at h
  | ok query =>
    rw [runOn_getMany hq, outcome_answer _ (Store.find_answer hp ..)] at h
    obtain ⟨members, hpage, hdata⟩ :=
      Page.toJson_data (Store.pageOf query (store.matching schema.name query.filter))
    rw [hpage] at h
    cases h
    rw [hdata] at hd
    cases hd
    obtain ⟨document, hdocument, rfl⟩ := Store.mem_of_mem_pageOf hv
    obtain ⟨entry, hentry, rfl⟩ := List.mem_map.1 (List.mem_filter.1 hdocument).1
    exact ⟨entry.1, entry.2, rfl, hentry⟩

theorem run_delete (hm : schema ∈ catalog.entities) (id : String) :
    run catalog .delete schema.name [("id", .str id)] store
      = outcome .str (store.delete schema.name id) := by
  have hid : requiredId .delete schema [("id", .str id)] = .ok id := requiredId_of_argument rfl
  rw [run_of_mem hm]
  simp [runOn, hid]

/-- A request for an id that is there takes out the document under it. -/
theorem run_delete_of_has (hm : schema ∈ catalog.entities) (hp : store.poisoned = false)
    {id : String} (h : Keyed.has id (store.collection schema.name) = true) :
    run catalog .delete schema.name [("id", .str id)] store = (.ok (.str id),
      store.setCollection schema.name (Keyed.erase id (store.collection schema.name))) := by
  rw [run_delete hm]
  simp [Store.delete, hp, h, outcome]

/-- A request for any other id is refused, and changes nothing. -/
theorem run_delete_of_not_has (hm : schema ∈ catalog.entities) (hp : store.poisoned = false)
    {id : String} (h : Keyed.has id (store.collection schema.name) = false) :
    run catalog .delete schema.name [("id", .str id)] store
      = (.error (.resolve (.notFound schema.name id)), store) := by
  rw [run_delete hm]
  simp [Store.delete, hp, h, outcome]

/-- The request to delete what was read, carried out, loses just the document under the id. -/
def Deletes (catalog : Catalog) (schema : Schema) (store : Store) (value : Json) (id : String) :
    Prop :=
  ∃ request args answer after, Request.delete schema value = .ok request ∧
    request.bindings = .obj args ∧
    run catalog .delete schema.name args store = (.ok answer, after) ∧
    store.Loses after schema.name id

/-- A request deletes just the document under the id that it names, if there is one. -/
theorem deletes_iff (hm : schema ∈ catalog.entities) (hp : store.poisoned = false)
    (ha : Keyed.Ascending (store.collection schema.name)) {value : Json} {id : String} :
    Deletes catalog schema store value id ↔ Request.idOf? schema value = some id ∧
      Keyed.has id (store.collection schema.name) = true := by
  constructor
  · intro ⟨request, args, answer, after, hrequest, hargs, hrun, hloses⟩
    obtain ⟨sent, hsent, rfl⟩ := Request.delete_eq_ok_iff.1 hrequest
    obtain rfl : [("id", .str sent)] = args := Json.obj.inj hargs
    cases hhas : Keyed.has sent (store.collection schema.name) with
    | false => rw [run_delete_of_not_has hm hp hhas] at hrun; cases hrun
    | true =>
      rw [run_delete_of_has hm hp hhas] at hrun
      cases hrun
      obtain rfl := hloses.eq (Store.loses_erase ha hhas)
      exact ⟨hsent, hhas⟩
  · intro ⟨hid, hhas⟩
    exact ⟨_, _, _, _, Request.delete_eq_ok_iff.2 ⟨id, hid, rfl⟩, rfl,
      run_delete_of_has hm hp hhas, Store.loses_erase ha hhas⟩

end Service

/-! ## Documents that were read -/

namespace Request

variable {schema : Schema}

/-- There is a request to delete what has a text or a number under the declared key. -/
theorem exists_delete_iff {document : Members} :
    (∃ request, delete schema (.obj document) = .ok request) ↔
      ∃ held, Keyed.get? schema.idKey document = some held ∧
        ((∃ text, held = .str text) ∨ (∃ n, held = .int n) ∨ ∃ d, held = .float d) := by
  have hheld (held : Json) : (∃ id, idText? held = some id) ↔
      (∃ text, held = .str text) ∨ (∃ n, held = .int n) ∨ ∃ d, held = .float d := by
    cases held <;> simp [idText?]
  simp only [delete_eq_ok_iff, idOf?, Option.bind_eq_some_iff, ← hheld]
  constructor
  · rintro ⟨_, id, ⟨held, hget, hid⟩, rfl⟩
    exact ⟨held, hget, id, hid⟩
  · rintro ⟨held, hget, id, hid⟩
    exact ⟨_, id, ⟨held, hget, hid⟩, rfl⟩

theorem delete_eq_error {document : Json} {cause : GenerationError}
    (h : delete schema document = .error cause) : cause = .missingId schema.name schema.idKey := by
  unfold delete at h
  cases hid : idOf? schema document <;> rw [hid] at h <;> cases h
  rfl

end Request

namespace Session

open Service (Deletes)

variable {catalog : Catalog} {schema : Schema}

/-- **Deleting what was read.** After any calls, a document that is read of an entity is filed under
one id. There is a request to delete it exactly if it has a text or a number under the key that the
entity declares; else that key is said to be missing. A request that sends the id of the document takes
just this document out of the store, and where the declared key is `_id` there always is one that
does. -/
theorem deletes_read (hm : schema ∈ catalog.entities) {calls : List Call}
    (ordered : ∀ call ∈ calls, call.Ordered) :
    let store := (ofCalls catalog calls).store
    ∀ name, lookupKey name = lookupKey schema.name → ∀ args answer data,
      (Service.run catalog .getMany name args store).1 = .ok (.obj answer) →
      Keyed.get? "data" answer = some (.arr data) → ∀ value ∈ data,
        ∃ id document, value = .obj document ∧
          (∀ other, Keyed.get? other (store.collection schema.name) = some document ↔ other = id) ∧
          ((∃ request, Request.delete schema value = .ok request) ↔
            ∃ held, Keyed.get? schema.idKey document = some held ∧
              ((∃ text, held = .str text) ∨ (∃ n, held = .int n) ∨ ∃ d, held = .float d)) ∧
          (∀ cause, Request.delete schema value = .error cause →
            cause = .missingId schema.name schema.idKey) ∧
          (∀ request, Request.delete schema value = .ok request →
            request.bindings = .obj [("id", .str id)] → Deletes catalog schema store value id) ∧
          (schema.idKey = "_id" → Deletes catalog schema store value id) := by
  intro store name hname args answer data hanswer hdata value hv
  have hsound : (ofCalls catalog calls).Sound schema := sound_ofCalls hm ordered
  have hp : store.poisoned = false := hsound.unpoisoned
  have ha : Keyed.Ascending (store.collection schema.name) := hsound.ascending
  rw [Service.run_of_entity (Service.entity_eq_ok_iff.2 ⟨hm, hname.symm⟩)] at hanswer
  obtain ⟨id, document, rfl, hmem⟩ := Service.mem_collection_of_getMany hp hanswer hdata hv
  have hget := (Keyed.get?_eq_some_iff ha).2 hmem
  have hlabel : Keyed.get? Store.idKey document = some (.str id) := hsound.labelled id document hget
  have hdeletes (hid : Request.idOf? schema (.obj document) = some id) :
      Deletes catalog schema store (.obj document) id :=
    (Service.deletes_iff hm hp ha).2 ⟨hid, by simp [Keyed.has, hget]⟩
  refine ⟨id, document, rfl, ?_, Request.exists_delete_iff, fun _ => Request.delete_eq_error, ?_, ?_⟩
  · intro other
    constructor
    · intro ho
      have hother := hsound.labelled other document ho
      rw [hlabel] at hother
      cases hother
      rfl
    · rintro rfl
      exact hget
  · intro request hrequest hbindings
    obtain ⟨sent, hsent, rfl⟩ := Request.delete_eq_ok_iff.1 hrequest
    cases hbindings
    exact hdeletes hsent
  · intro hkey
    refine hdeletes ?_
    rw [Request.idOf?, hkey]
    exact congrArg (·.bind Request.idText?) hlabel

/-- After the sample calls one workflow is read, and its request takes it out of the store. -/
theorem deletes_read_sample :
    let store := (ofCalls Schema.Sample.catalog sample).store
    let value := Json.obj [("_id", .str "id1"), ("label", .str "final")]
    (Service.run Schema.Sample.catalog .getMany "workflow" [] store).1
        = .ok (Page.toJson { data := [value], count := 1, totalCount := some 1 }) ∧
      Deletes Schema.Sample.catalog Schema.Sample.workflow store value "id1" := by
  intro store value
  have hm : Schema.Sample.workflow ∈ Schema.Sample.catalog.entities := by decide
  have ordered : ∀ call ∈ sample, call.Ordered := by decide
  have hread : (Service.run Schema.Sample.catalog .getMany "workflow" [] store).1
      = .ok (Page.toJson { data := [value], count := 1, totalCount := some 1 }) := rfl
  refine ⟨hread, ?_⟩
  obtain ⟨answer, hanswer, hdata⟩ :=
    Page.toJson_data { data := [value], count := 1, totalCount := some 1 }
  rw [hanswer] at hread
  obtain ⟨id, document, hvalue, hid, -, -, -, hdeletes⟩ := deletes_read hm ordered "workflow"
    (by decide) [] answer [value] hread hdata value (List.mem_singleton.2 rfl)
  obtain rfl := Json.obj.inj hvalue
  obtain rfl : "id1" = id := (hid "id1").1 rfl
  exact hdeletes rfl

/-! ## Documents without an id -/

namespace Sample

/-- An entity that is identified by a code of its own. -/
def ticket : Schema where
  serial := 0
  name := "Ticket"
  pluralName := "Tickets"
  description := none
  isEntity := true
  fields := [{ Field.scalar "code" .string with owner := some "Ticket", flags := { id := true } }]

theorem ticket_frozen : ticket.Frozen := by
  refine (Schema.frozen_iff ticket).2 ⟨by decide, ?_, by decide⟩
  simp [ticket, Field.scalar, Field.ofType, Field.target?, FieldType.target?]

def tickets : Catalog := ⟨[ticket], by decide⟩

/-- A ticket is inserted that nobody has given a code. -/
def blankTicket : List Call := [⟨.insert, "Ticket", [("doc", .obj [])]⟩]

end Sample

open Sample in
/-- A ticket without a code is read, and there is no request to delete it. -/
theorem deletes_ticket_refused : ticket.Frozen ∧ Catalog.ofSchemas [ticket] = .ok tickets ∧
    ticket ∈ tickets.entities ∧ (∀ call ∈ blankTicket, call.Ordered) ∧
    let store := (ofCalls tickets blankTicket).store
    let value := Json.obj [("_id", .str "id1")]
    (Service.run tickets .getMany "Ticket" [] store).1
        = .ok (Page.toJson { data := [value], count := 1, totalCount := some 1 }) ∧
      Request.delete ticket value = .error (.missingId "Ticket" "code") ∧
      ∀ id, ¬ Deletes tickets ticket store value id := by
  refine ⟨ticket_frozen, rfl, by decide, by decide, ?_⟩
  intro store value
  refine ⟨rfl, rfl, ?_⟩
  rintro id ⟨request, args, answer, after, hrequest, -⟩
  cases hrequest

end Session

end EntityModel
