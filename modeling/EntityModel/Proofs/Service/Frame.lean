import EntityModel.Proofs.Service.Filing

/-!
# What a call leaves alone

A call can fail at many points, some of them after the store took note of a query or used up the
number of an id. None of these has touched a document: a call changes documents only when it is
answered with an id, and then just the document under this id, of the entity that it named.

Results:
* `Store.Filed.changes`: new documents of one schema that differ from the old under one id only.
* `Service.Step.same`, `Service.Step.written`: what one operation leaves alone, and what it makes of
  the document whose id it answers with.
* `Session.call_changes`: the same for any call, after any calls and with the store poisoned or not.
-/
namespace EntityModel

/-! ## Changing one document -/

namespace Store

/-- From `before` to `after` nothing changes but what is held under a name and an id: `old` before,
and `new` after. -/
structure Changes (before after : Store) (name id : String) (old new : Option Members) : Prop where
  old : ∀ document, before.Holds name id document ↔ old = some document
  new : ∀ document, after.Holds name id document ↔ new = some document
  others : ∀ other key, (other, key) ≠ (name, id) → ∀ document,
    after.Holds other key document ↔ before.Holds other key document

theorem holds_iff_get? {store : Store} {name : String} (names : Keyed.Ascending store.collections)
    (ids : Keyed.Ascending (store.collection name)) {id : String} {document : Members} :
    store.Holds name id document ↔ Keyed.get? id (store.collection name) = some document :=
  (holds_iff_mem names).trans (Keyed.get?_eq_some_iff ids).symm

/-- The documents of one schema are replaced by others that differ from them under one id only. -/
theorem Filed.changes {entities : List Schema} {store : Store} (h : store.Filed entities)
    (issued : Nat) {name id : String} {documents : Keyed Members} (ids : Keyed.Ascending documents)
    (kept : ∀ key, key ≠ id →
      Keyed.get? key documents = Keyed.get? key (store.collection name)) :
    store.Changes ({ store with issued }.setCollection name documents) name id
      (Keyed.get? id (store.collection name)) (Keyed.get? id documents) := by
  have hself : ({ store with issued }.setCollection name documents).collection name = documents :=
    collection_setCollection_self ..
  have hother {other : String} (hn : other ≠ name) :
      ({ store with issued }.setCollection name documents).collection other
        = store.collection other :=
    collection_setCollection_of_ne hn ..
  have hids (other : String) : Keyed.Ascending
      (({ store with issued }.setCollection name documents).collection other) := by
    by_cases hn : other = name
    · rw [hn, hself]
      exact ids
    · rw [hother hn]
      exact h.ids other
  have hafter {other key : String} {document : Members} :
      ({ store with issued }.setCollection name documents).Holds other key document ↔
        Keyed.get? key (({ store with issued }.setCollection name documents).collection other)
          = some document :=
    holds_iff_get? (h.names.insert name documents) (hids other)
  refine ⟨fun document => ?_, fun document => ?_, fun other key hne document => ?_⟩
  · exact holds_iff_get? h.names (h.ids name)
  · exact hafter.trans (by rw [hself])
  · refine hafter.trans (Iff.trans (Eq.congr_left ?_) (holds_iff_get? h.names (h.ids other)).symm)
    by_cases hn : other = name
    · subst hn
      rw [hself]
      exact kept key fun hk => hne (by rw [hk])
    · rw [hother hn]

end Store

/-! ## One operation -/

namespace Service

/-- What an operation that is answered with an id makes of the document under it: it puts one in
where there was none, lays one over it, or takes it out. -/
inductive Written (args : Args) (id : String) : Operation → Option Members → Option Members → Prop
  | inserted {document : Members} : Keyed.get? "doc" args = some (.obj document) →
      Written args id .insert none (some (Keyed.insert "_id" (.str id) document))
  | updated {document held : Members} : Keyed.get? "doc" args = some (.obj document) →
      Keyed.get? "_id" document = some (.str id) →
      Written args id .update (some held) (some (Keyed.overlay held document))
  | deleted {held : Members} : Keyed.get? "id" args = some (.str id) →
      Written args id .delete (some held) none

variable {entities : List Schema} {schema : Schema} {operation : Operation} {args : Args}
  {store : Store} {outcome : Outcome}

/-- An operation that fails or reads leaves all documents as they are. -/
theorem Step.same (h : Step schema args store operation outcome)
    (hs : (∃ cause, outcome.1 = .error cause) ∨ operation.isQuery = true) :
    outcome.2.collections = store.collections := by
  cases h with
  | refused _ hc _ _ => exact hc
  | read _ _ hc _ _ => exact hc
  | inserted | updated | deleted =>
    rcases hs with ⟨cause, hcause⟩ | hquery
    · cases hcause
    · cases hquery

/-- An operation that writes is answered with the id of the one document that it changes. -/
theorem Step.written (h : Step schema args store operation outcome) (hf : store.Filed entities)
    (hw : operation.isQuery = false) {answer : Json} (ha : outcome.1 = .ok answer) :
    ∃ id old new, answer = .str id ∧ Written args id operation old new ∧
      store.Changes outcome.2 schema.name id old new := by
  have hids := hf.ids schema.name
  cases h with
  | refused cause _ _ _ => cases ha
  | read _ hq _ _ _ => rw [hq] at hw; cases hw
  | @inserted document id _ hd hid =>
    cases ha
    have hchanges := hf.changes (store.issued + 1)
      (hids.insert id (Keyed.insert Store.idKey (.str id) document))
      fun key hk => Keyed.get?_insert_of_ne hk ..
    -- the id has a number that no document in the store has
    have hnone : Keyed.get? id (store.collection schema.name) = none := by
      refine Keyed.get?_eq_none fun hm => ?_
      obtain ⟨n, -, hn, heq⟩ := hf.numbered schema.name id hm
      have := Store.idText_injective (hid.symm.trans heq)
      omega
    rw [hnone, Keyed.get?_insert_self] at hchanges
    exact ⟨id, _, _, rfl, .inserted hd, hchanges⟩
  | @updated document held id _ hd hid hheld =>
    cases ha
    have hchanges := hf.changes store.issued (hids.insert id (Keyed.overlay held document))
      fun key hk => Keyed.get?_insert_of_ne hk ..
    rw [hheld, Keyed.get?_insert_self] at hchanges
    exact ⟨id, _, _, rfl, .updated hd hid, hchanges⟩
  | @deleted id _ hid hhas =>
    cases ha
    obtain ⟨held, hheld⟩ := Option.isSome_iff_exists.1 hhas
    have hchanges := hf.changes store.issued (hids.erase id)
      fun key hk => Keyed.get?_erase_of_ne hk _
    rw [hheld, Keyed.get?_erase_self hids] at hchanges
    exact ⟨id, _, _, rfl, .deleted hid, hchanges⟩

end Service

/-! ## Any call -/

namespace Session

/-- **Frame.** After any calls, with the store poisoned at any time, take any call, under any name and
with any arguments. If it fails, no document changes; if it reads, none changes either. If it writes
and is answered, it named an entity up to case, the answer is an id, and just the document of this
entity under this id changes: it is put in, laid over, or taken out. -/
theorem call_changes (catalog : Catalog) {actions : List Action}
    (ordered : ∀ action ∈ actions, action.Ordered) :
    let before := (ofActions catalog actions).store
    ∀ operation name args,
      let outcome := Service.run catalog operation name args before
      (∀ cause, outcome.1 = .error cause → outcome.2.collections = before.collections) ∧
      (operation.isQuery = true → outcome.2.collections = before.collections) ∧
      (∀ answer, outcome.1 = .ok answer → operation.isQuery = false →
        ∃ entity ∈ catalog.entities, lookupKey entity.name = lookupKey name ∧
          ∃ id old new, answer = .str id ∧ Service.Written args id operation old new ∧
            before.Changes outcome.2 entity.name id old new) := by
  intro before operation name args outcome
  have hfiled : before.Filed catalog.entities := (orderly_ofActions catalog ordered).filed
  cases he : Service.entity catalog name with
  | error cause =>
    have ho : outcome = (.error cause, before) := by simp only [outcome, Service.run, he]
    rw [ho]
    exact ⟨fun _ _ => rfl, fun _ => rfl, fun answer ha => by cases ha⟩
  | ok schema =>
    have ho : outcome = Service.runOn schema operation args before := Service.run_of_entity he ..
    have hstep : Service.Step schema args before operation outcome := ho ▸ Service.runOn_step ..
    refine ⟨fun cause hc => hstep.same (.inl ⟨cause, hc⟩), fun hq => hstep.same (.inr hq), ?_⟩
    intro answer ha hw
    obtain ⟨hm, hn⟩ := Service.entity_eq_ok_iff.1 he
    exact ⟨schema, hm, hn, hstep.written hfiled hw ha⟩

/-- A workflow and a category are held, and the workflow is laid over: it is another one then, and
what is held under the category's id stays. -/
theorem call_changes_sample :
    let actions := poisonedSample.take 2
    let before := (ofActions Schema.Sample.catalog actions).store
    let document : Members := [("_id", .str "id1"), ("label", .str "final")]
    let outcome := Service.run Schema.Sample.catalog .update "WORKFLOW" [("doc", .obj document)] before
    (∀ action ∈ actions, action.Ordered) ∧ outcome.1 = .ok (.str "id1") ∧
      before.Holds "Workflow" "id1" [("_id", .str "id1"), ("label", .str "draft")] ∧
      (∀ held, outcome.2.Holds "Workflow" "id1" held ↔ document = held) ∧
      ∀ held, outcome.2.Holds "Category" "id2" held ↔ before.Holds "Category" "id2" held := by
  intro actions before document outcome
  have ordered : ∀ action ∈ actions, action.Ordered := by decide
  have hanswer : outcome.1 = .ok (.str "id1") := rfl
  have hheld : before.Holds "Workflow" "id1" [("_id", .str "id1"), ("label", .str "draft")] :=
    ⟨_, List.mem_cons_of_mem _ (List.mem_cons_self ..), List.mem_cons_self ..⟩
  obtain ⟨-, -, hwritten⟩ := call_changes Schema.Sample.catalog ordered .update "WORKFLOW"
    [("doc", .obj document)]
  obtain ⟨entity, hm, hn, id, old, new, hid, hw, hchanges⟩ := hwritten _ hanswer rfl
  obtain rfl : entity = Schema.Sample.workflow :=
    Schema.Sample.catalog.keysDiffer_entities.eq_of_key_eq hm (by decide) (hn.trans (by decide))
  cases hid
  refine ⟨ordered, hanswer, hheld, fun held => ?_, fun held => hchanges.others _ _ (by decide) held⟩
  cases hw with
  | updated hd _ =>
    cases hd
    have hold := (hchanges.old _).1 hheld
    cases hold
    exact (hchanges.new held).trans Option.some_inj

end Session

end EntityModel
