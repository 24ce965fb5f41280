import EntityModel.Proofs.Service.Session

/-!
# Where documents are filed

A store that starts empty takes calls, and may be poisoned between two of them. An operation turns
to the store under the name that its entity is registered by, whatever the case of the name in the
call, so documents stand under such names only. What is laid over a document carries the
document's id, so every document carries the id that it is filed under. Ids are numbered by one
counter for all entities that no operation sets back: no id is filed twice, and none is given again
after its document is gone.

Results:
* `Store.Filed.replace`: the documents of an entity are replaced, under old ids and new numbers.
* `Service.Step.filed`, `Service.Step.issued?`: what one operation keeps, and the id it gives.
* `Session.Orderly.act`: one call keeps the order, and so does poisoning.
* `Session.documents_filed`: the order after any calls.
-/
namespace EntityModel

/-! ## Documents in order -/

namespace Store

/-- A document is held under the name of a schema and an id. -/
def Holds (store : Store) (name id : String) (document : Members) : Prop :=
  ∃ documents, (name, documents) ∈ store.collections ∧ (id, document) ∈ documents

/-- Documents stand under names of entities and under ids of their own, which they carry. -/
structure Filed (entities : List Schema) (store : Store) : Prop where
  names : Keyed.Ascending store.collections
  entity : ∀ name ∈ Keyed.keys store.collections, ∃ entity ∈ entities, entity.name = name
  ids : ∀ name, Keyed.Ascending (store.collection name)
  labelled : ∀ name, Labelled (store.collection name)
  /-- Ids are numbered up to the counter. -/
  numbered : ∀ name, ∀ id ∈ Keyed.keys (store.collection name),
    ∃ n, 1 ≤ n ∧ n ≤ store.issued ∧ id = idText n
  /-- No id is found under two names. -/
  apart : ∀ name other, ∀ id ∈ Keyed.keys (store.collection name),
    id ∈ Keyed.keys (store.collection other) → name = other

theorem idText_eq (n : Nat) : idText n = "id" ++ toString n := by
  rw [← String.toList_inj]
  simp [idText, Nat.repr]

variable {entities : List Schema} {store after : Store}

theorem filed_empty (entities : List Schema) : Filed entities {} where
  names := List.Pairwise.nil
  entity := by simp [Keyed.keys]
  ids _ := List.Pairwise.nil
  labelled _ _ _ h := by cases h
  numbered := by simp [collection, Keyed.get?, Keyed.keys]
  apart := by simp [collection, Keyed.get?, Keyed.keys]

/-- A store with the same documents is in order, if its counter is not behind. -/
theorem Filed.congr (h : store.Filed entities) (hc : after.collections = store.collections)
    (hi : store.issued ≤ after.issued) : after.Filed entities := by
  have hcollection (name : String) : after.collection name = store.collection name :=
    collection_congr hc name
  refine ⟨hc ▸ h.names, hc ▸ h.entity, ?_, ?_, ?_, ?_⟩
  · intro name
    exact hcollection name ▸ h.ids name
  · intro name
    exact hcollection name ▸ h.labelled name
  · intro name id hid
    obtain ⟨n, hpos, hle, heq⟩ := h.numbered name id (hcollection name ▸ hid)
    exact ⟨n, hpos, Nat.le_trans hle hi, heq⟩
  · intro name other id hid hid'
    exact h.apart name other id (hcollection name ▸ hid) (hcollection other ▸ hid')

/-- The documents of an entity are replaced by others under the same ids, or under ids with numbers
that were not issued before. -/
theorem Filed.replace (h : store.Filed entities) {schema : Schema} (hm : schema ∈ entities)
    {issued : Nat} (hle : store.issued ≤ issued) {documents : Keyed Members}
    (ids : Keyed.Ascending documents) (labelled : Labelled documents)
    (keys : ∀ id ∈ Keyed.keys documents, id ∈ Keyed.keys (store.collection schema.name) ∨
      ∃ n, store.issued < n ∧ n ≤ issued ∧ id = idText n) :
    ({ store with issued }.setCollection schema.name documents).Filed entities := by
  have hself : ({ store with issued }.setCollection schema.name documents).collection schema.name
      = documents := collection_setCollection_self ..
  have hother {name : String} (hn : name ≠ schema.name) :
      ({ store with issued }.setCollection schema.name documents).collection name
        = store.collection name :=
    collection_setCollection_of_ne hn ..
  -- an id is an old one under its old name, or has a new number and stands under the entity
  have hold (name id : String) (hid : id ∈ Keyed.keys
      (({ store with issued }.setCollection schema.name documents).collection name)) :
      id ∈ Keyed.keys (store.collection name) ∨
        name = schema.name ∧ ∃ n, store.issued < n ∧ n ≤ issued ∧ id = idText n := by
    by_cases hn : name = schema.name
    · subst hn
      rw [hself] at hid
      exact (keys id hid).imp_right fun hnew => ⟨rfl, hnew⟩
    · rw [hother hn] at hid
      exact .inl hid
  -- no old id has a new number
  have hnew {name id : String} (hid : id ∈ Keyed.keys (store.collection name)) {n : Nat}
      (hn : store.issued < n) : id ≠ idText n := by
    obtain ⟨m, -, hm, rfl⟩ := h.numbered name id hid
    intro he
    have := idText_injective he
    omega
  refine ⟨h.names.insert _ _, ?_, ?_, ?_, ?_, ?_⟩
  · intro name hname
    rcases (Keyed.mem_keys_insert ..).1 hname with rfl | hname
    · exact ⟨schema, hm, rfl⟩
    · exact h.entity name hname
  · intro name
    by_cases hn : name = schema.name
    · rw [hn, hself]
      exact ids
    · rw [hother hn]
      exact h.ids name
  · intro name
    by_cases hn : name = schema.name
    · rw [hn, hself]
      exact labelled
    · rw [hother hn]
      exact h.labelled name
  · intro name id hid
    rcases hold name id hid with hid | ⟨-, n, hlt, hn, heq⟩
    · obtain ⟨n, hpos, hn, heq⟩ := h.numbered name id hid
      exact ⟨n, hpos, Nat.le_trans hn hle, heq⟩
    · exact ⟨n, Nat.lt_of_le_of_lt (Nat.zero_le _) hlt, hn, heq⟩
  · intro name other id hid hid'
    rcases hold name id hid with hid | ⟨hname, n, hlt, -, heq⟩
    · rcases hold other id hid' with hid' | ⟨-, n, hlt, -, heq⟩
      · exact h.apart name other id hid hid'
      · exact absurd heq (hnew hid hlt)
    · rcases hold other id hid' with hid' | ⟨hother, -⟩
      · exact absurd heq (hnew hid' hlt)
      · exact hname.trans hother.symm

/-- What is held under a name is one of the documents under it. -/
theorem holds_iff_mem (names : Keyed.Ascending store.collections) {name id : String}
    {document : Members} : store.Holds name id document ↔ (id, document) ∈ store.collection name := by
  unfold Holds collection
  simp only [← Keyed.get?_eq_some_iff names]
  cases Keyed.get? name store.collections <;> simp

theorem Filed.holds_iff (h : store.Filed entities) {name id : String} {document : Members} :
    store.Holds name id document ↔ (id, document) ∈ store.collection name :=
  holds_iff_mem h.names

/-! ## The counter -/

theorem find_issued (store : Store) (schema : String) (query : FindQuery) (joins : List Join) :
    (store.find schema query joins).2.issued = store.issued := by
  unfold find
  simp only
  split <;> rfl

theorem update_issued (store : Store) (schema : String) (document : Members) :
    (store.update schema document).2.issued = store.issued := by
  unfold update
  split
  · rfl
  · split
    · rfl
    · split <;> rfl

theorem delete_issued (store : Store) (schema id : String) :
    (store.delete schema id).2.issued = store.issued := by
  unfold delete
  split
  · rfl
  · split <;> rfl

end Store

/-! ## One operation -/

/-- The id that a call was answered with, if it put a document in. -/
def Event.issued? (event : Event) : Option String :=
  match event.call.operation, event.answer with
  | .insert, .ok answer => answer.text?
  | _, _ => none

theorem Event.issued?_eq_some_iff {event : Event} {id : String} : event.issued? = some id ↔
    event.call.operation = .insert ∧ event.answer = .ok (.str id) := by
  unfold issued?
  cases event.answer with
  | error cause => cases event.call.operation <;> simp
  | ok answer =>
    cases event.call.operation <;> cases answer <;> simp [Json.text?]

theorem Call.Ordered.document {call : Call} (h : call.Ordered) {document : Members}
    (hd : Keyed.get? "doc" call.args = some (.obj document)) : Keyed.Ascending document :=
  h document (by simp [Call.document?, hd, Json.members?])

namespace Service

variable {entities : List Schema} {schema : Schema} {call : Call} {store : Store} {outcome : Outcome}

/-- An operation leaves the documents in order. -/
theorem Step.filed (h : Step schema call.args store call.operation outcome)
    (hm : schema ∈ entities) (ordered : call.Ordered) (hf : store.Filed entities) :
    outcome.2.Filed entities := by
  obtain ⟨operation, name, args⟩ := call
  have hids := hf.ids schema.name
  have hlabelled := hf.labelled schema.name
  cases h with
  | refused cause hc hi _ => exact hf.congr hc hi
  | read answer _ hc hi _ => exact hf.congr hc (Nat.le_of_eq hi.symm)
  | @inserted document id _ hd hid =>
    refine hf.replace hm (Nat.le_succ _) (hids.insert ..)
      (hlabelled.insert (Keyed.get?_insert_self ..)) fun other ho => ?_
    rcases (Keyed.mem_keys_insert ..).1 ho with rfl | ho
    · exact .inr ⟨store.issued + 1, Nat.lt_succ_self _, Nat.le_refl _, hid⟩
    · exact .inl ho
  | @updated document held id _ hd hid hheld =>
    have hmem : id ∈ Keyed.keys (store.collection schema.name) :=
      List.mem_map_of_mem (Keyed.mem_of_get? hheld)
    have hdocument : Keyed.get? Store.idKey (Keyed.overlay held document) = some (.str id) :=
      Keyed.get?_overlay_of_mem (ordered.document hd).nodup (Keyed.mem_of_get? hid)
    refine hf.replace hm (Nat.le_refl _) (hids.insert ..) (hlabelled.insert hdocument)
      fun other ho => .inl ?_
    rcases (Keyed.mem_keys_insert ..).1 ho with rfl | ho
    · exact hmem
    · exact ho
  | @deleted id _ hid hhas =>
    refine hf.replace hm (Nat.le_refl _) (hids.erase _) (hlabelled.erase hids _)
      fun other ho => .inl ?_
    exact ((Keyed.erase_sublist id _).map Prod.fst).subset ho

/-- An operation that puts a document in gives it the next number, and none sets the counter back. -/
theorem Step.issued? (h : Step schema call.args store call.operation outcome) :
    store.issued ≤ outcome.2.issued ∧ ∀ id, Event.issued? ⟨call, outcome.1⟩ = some id →
      id = Store.idText (store.issued + 1) ∧ outcome.2.issued = store.issued + 1 := by
  simp only [Event.issued?_eq_some_iff]
  obtain ⟨operation, name, args⟩ := call
  cases h with
  | refused cause _ hi _ => exact ⟨hi, fun id ⟨_, hid⟩ => by cases hid⟩
  | read answer hq _ hi _ =>
    refine ⟨Nat.le_of_eq hi.symm, fun id ⟨hinsert, _⟩ => ?_⟩
    rw [hinsert] at hq
    cases hq
  | inserted _ _ hid =>
    refine ⟨Nat.le_succ _, fun id ⟨_, hanswer⟩ => ?_⟩
    cases hanswer
    exact ⟨hid, rfl⟩
  | updated => exact ⟨Nat.le_refl _, fun id ⟨hinsert, _⟩ => by cases hinsert⟩
  | deleted => exact ⟨Nat.le_refl _, fun id ⟨hinsert, _⟩ => by cases hinsert⟩

/-- Only an insert uses up a number, and at most one. -/
theorem runOn_issued_le (schema : Schema) (operation : Operation) (args : Args) (store : Store) :
    (runOn schema operation args store).2.issued
      ≤ store.issued + if operation = .insert then 1 else 0 := by
  unfold runOn
  cases operation with
  | insert =>
    cases requiredDocument .insert schema args with
    | error e => exact Nat.le_succ _
    | ok document => exact Nat.le_of_eq (by simp [outcome_store, Store.add_issued])
  | update =>
    cases requiredDocument .update schema args with
    | error e => exact Nat.le_refl _
    | ok document => exact Nat.le_of_eq (by simp [outcome_store, Store.update_issued])
  | getOne =>
    cases requiredId .getOne schema args with
    | error e => exact Nat.le_refl _
    | ok id => exact Nat.le_of_eq (by simp [outcome_store, Store.find_issued])
  | getMany =>
    cases queryOf args with
    | error e => exact Nat.le_refl _
    | ok query => exact Nat.le_of_eq (by simp [outcome_store, Store.find_issued])
  | delete =>
    cases requiredId .delete schema args with
    | error e => exact Nat.le_refl _
    | ok id => exact Nat.le_of_eq (by simp [outcome_store, Store.delete_issued])

/-- What a call does to the order of the documents, to the counter, and which id it gives. -/
structure Keeps (entities : List Schema) (call : Call) (store : Store) (outcome : Outcome) : Prop where
  filed : store.Filed entities → outcome.2.Filed entities
  issued : store.issued ≤ outcome.2.issued
  counted : outcome.2.issued ≤ store.issued + if call.operation = .insert then 1 else 0
  given : ∀ id, Event.issued? ⟨call, outcome.1⟩ = some id →
    id = Store.idText (store.issued + 1) ∧ outcome.2.issued = store.issued + 1

theorem run_keeps (catalog : Catalog) {call : Call} (ordered : call.Ordered) (store : Store) :
    Keeps catalog.entities call store
      (run catalog call.operation call.name call.args store) := by
  cases he : entity catalog call.name with
  | error cause =>
    rw [run, he]
    exact ⟨id, Nat.le_refl _, Nat.le_add_right .., by simp [Event.issued?_eq_some_iff]⟩
  | ok schema =>
    rw [run_of_entity he]
    have hstep := runOn_step schema call.operation call.args store
    exact ⟨hstep.filed (entity_eq_ok_iff.1 he).1 ordered, hstep.issued?.1, runOn_issued_le ..,
      hstep.issued?.2⟩

end Service

/-! ## All calls -/

/-- What may happen to a session: a call is made, or the store is poisoned. -/
inductive Action where
  | call (call : Call)
  | poison

/-- The keys of a document in a call ascend. -/
def Action.Ordered : Action → Prop
  | .call made => made.Ordered
  | .poison => True

instance : (action : Action) → Decidable action.Ordered
  | .call made => inferInstanceAs (Decidable made.Ordered)
  | .poison => inferInstanceAs (Decidable True)

namespace Session

/-- One more action. -/
def act (catalog : Catalog) (session : Session) : Action → Session
  | .call call => session.next catalog call
  | .poison => { session with store := session.store.poison }

/-- Actions one after the other, over a store that starts empty. -/
def ofActions (catalog : Catalog) (actions : List Action) : Session :=
  actions.foldl (act catalog) {}

/-- The ids that inserts were answered with, in order. -/
def given (session : Session) : List String := session.events.filterMap Event.issued?

/-- How many inserts were called. -/
def inserts (session : Session) : Nat := session.events.countP (·.call.operation = .insert)

/-- What holds throughout a session. -/
structure Orderly (catalog : Catalog) (session : Session) : Prop where
  filed : session.store.Filed catalog.entities
  once : session.given.Nodup
  /-- No id that was given will come again. -/
  numbered : ∀ id ∈ session.given, ∃ n ≤ session.store.issued, id = Store.idText n
  counted : session.store.issued ≤ session.inserts

variable {catalog : Catalog} {session : Session}

theorem orderly_empty (catalog : Catalog) : Orderly catalog {} where
  filed := Store.filed_empty _
  once := by simp [given]
  numbered := by simp [given]
  counted := Nat.le_refl _

theorem Orderly.next (h : session.Orderly catalog) {call : Call} (ordered : call.Ordered) :
    (session.next catalog call).Orderly catalog := by
  have hkeeps := Service.run_keeps catalog ordered session.store
  have hgiven : (session.next catalog call).given = session.given ++ (Event.issued? ⟨call,
      (Service.run catalog call.operation call.name call.args session.store).1⟩).toList := by
    simp only [given, Session.next, List.filterMap_append]
    cases hi : Event.issued? ⟨call,
      (Service.run catalog call.operation call.name call.args session.store).1⟩ <;> simp [hi]
  have hinserts : (session.next catalog call).inserts
      = session.inserts + if call.operation = .insert then 1 else 0 := by
    simp [inserts, Session.next, List.countP_cons]
  refine ⟨hkeeps.filed h.filed, ?_, ?_, ?_⟩
  · rw [hgiven, List.nodup_append]
    refine ⟨h.once, by cases Event.issued? _ <;> simp, ?_⟩
    intro id hid other hother he
    -- the id that is given now has the next number, and those before have smaller ones
    obtain ⟨n, hn, rfl⟩ := h.numbered id hid
    have hnext := (hkeeps.given other (Option.mem_toList.1 hother)).1
    have := Store.idText_injective (he.trans hnext)
    omega
  · rw [hgiven]
    intro id hid
    rcases List.mem_append.1 hid with hid | hid
    · obtain ⟨n, hn, rfl⟩ := h.numbered id hid
      exact ⟨n, Nat.le_trans hn hkeeps.issued, rfl⟩
    · obtain ⟨heq, hissued⟩ := hkeeps.given id (Option.mem_toList.1 hid)
      exact ⟨session.store.issued + 1, Nat.le_of_eq hissued.symm, heq⟩
  · rw [hinserts]
    exact Nat.le_trans hkeeps.counted (Nat.add_le_add_right h.counted _)

theorem Orderly.act (h : session.Orderly catalog) {action : Action}
    (ordered : action.Ordered) : (session.act catalog action).Orderly catalog := by
  cases action with
  | call call => exact h.next ordered
  | poison => exact ⟨h.filed.congr rfl (Nat.le_refl _), h.once, h.numbered, h.counted⟩

theorem orderly_ofActions (catalog : Catalog) {actions : List Action}
    (ordered : ∀ action ∈ actions, action.Ordered) :
    (ofActions catalog actions).Orderly catalog := by
  have hfold : ∀ session : Session, session.Orderly catalog →
      (actions.foldl (Session.act catalog) session).Orderly catalog := by
    induction actions with
    | nil => exact fun _ h => h
    | cons action rest ih =>
      intro session h
      exact ih (fun other hr => ordered other (List.mem_cons_of_mem _ hr)) _
        (h.act (ordered action (List.mem_cons_self ..)))
  exact hfold {} (orderly_empty catalog)

/-- **Filing.** After any calls, with the store poisoned at any time, documents stand under the names
of entities only, each carries the id that it is held under, and ids are numbered from one up to the
counter. This is not ahead of the number of inserts called, so it fits into 64 bits when they do. No id
is held twice, under one name or under two, and no two inserts of the session were answered with one
id. -/
theorem documents_filed (catalog : Catalog) {actions : List Action}
    (ordered : ∀ action ∈ actions, action.Ordered) :
    let session := ofActions catalog actions
    let store := session.store
    (∀ name documents, (name, documents) ∈ store.collections →
      ∃ entity ∈ catalog.entities, entity.name = name) ∧
    (∀ name id document, store.Holds name id document →
      Keyed.get? "_id" document = some (.str id) ∧
        ∃ n, 1 ≤ n ∧ n ≤ store.issued ∧ id = "id" ++ toString n) ∧
    (∀ name other id document document', store.Holds name id document →
      store.Holds other id document' → name = other ∧ document = document') ∧
    session.given.Nodup ∧ store.issued ≤ session.inserts := by
  intro session store
  obtain ⟨hfiled, honce, -, hcounted⟩ := orderly_ofActions catalog ordered
  refine ⟨?_, ?_, ?_, honce, hcounted⟩
  · intro name documents hm
    exact hfiled.entity name (List.mem_map_of_mem hm)
  · intro name id document hholds
    have hm := hfiled.holds_iff.1 hholds
    obtain ⟨n, hpos, hn, heq⟩ := hfiled.numbered name id (List.mem_map_of_mem hm)
    refine ⟨hfiled.labelled name id document ((Keyed.get?_eq_some_iff (hfiled.ids name)).2 hm), n,
      hpos, hn, ?_⟩
    rw [heq, Store.idText_eq]
  · intro name other id document document' hholds hholds'
    have hm := hfiled.holds_iff.1 hholds
    have hm' := hfiled.holds_iff.1 hholds'
    obtain rfl := hfiled.apart name other id (List.mem_map_of_mem hm) (List.mem_map_of_mem hm')
    have hget := (Keyed.get?_eq_some_iff (hfiled.ids name)).2 hm
    have hget' := (Keyed.get?_eq_some_iff (hfiled.ids name)).2 hm'
    exact ⟨rfl, Option.some.inj (hget.symm.trans hget')⟩

/-- Workflows and categories are put in, one with an id of its own choice, and are laid over and
taken out, under names in either case. After the store is poisoned an insert still uses up a
number. -/
def poisonedSample : List Action :=
  [.call ⟨.insert, "workflow", [("doc", .obj [("_id", .str "id7"), ("label", .str "draft")])]⟩,
    .call ⟨.insert, "CATEGORY", [("doc", .obj [])]⟩,
    .call ⟨.update, "Workflow", [("doc", .obj [("_id", .str "id1"), ("label", .str "final")])]⟩,
    .call ⟨.update, "Workflow", [("doc", .obj [("_id", .str "id2")])]⟩,
    .call ⟨.delete, "Category", [("id", .str "id2")]⟩,
    .call ⟨.insert, "Category", [("doc", .obj [])]⟩,
    .poison,
    .call ⟨.insert, "Category", [("doc", .obj [])]⟩,
    .call ⟨.getMany, "Category", []⟩]

/-- In the sample three ids are given and four numbers used up, and the workflow under `id1` is the
only document under this id. -/
theorem documents_filed_sample :
    (∀ action ∈ poisonedSample, action.Ordered) ∧
      let session := ofActions Schema.Sample.catalog poisonedSample
      session.given = ["id1", "id2", "id3"] ∧ session.given.Nodup ∧ session.store.issued = 4 ∧
        session.inserts = 4 ∧ ∀ name document, session.store.Holds name "id1" document ↔
          name = "Workflow" ∧ document = [("_id", .str "id1"), ("label", .str "final")] := by
  have ordered : ∀ action ∈ poisonedSample, action.Ordered := by decide
  obtain ⟨-, -, hunique, honce, -⟩ := documents_filed Schema.Sample.catalog ordered
  have hworkflow : (ofActions Schema.Sample.catalog poisonedSample).store.Holds "Workflow" "id1"
      [("_id", .str "id1"), ("label", .str "final")] :=
    ⟨_, List.mem_cons_of_mem _ (List.mem_cons_self ..), List.mem_cons_self ..⟩
  refine ⟨ordered, rfl, honce, rfl, rfl, fun name document => ⟨fun hholds => ?_, ?_⟩⟩
  · obtain ⟨hname, hdocument⟩ := hunique _ _ _ _ _ hholds hworkflow
    exact ⟨hname, hdocument⟩
  · rintro ⟨rfl, rfl⟩
    exact hworkflow

end Session

end EntityModel
