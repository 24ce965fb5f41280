import EntityModel.Proofs.Catalog.Acceptance
import EntityModel.Proofs.Store
import EntityModel.Service

/-!
# How an operation is carried out

An operation finds its entity, reads its argument, and turns to the store. What it can do is said
once here, so that nothing else needs to look into the service.

Results:
* `entity_eq_ok_iff`: a name stands for the entity that has it up to case.
* `runOn_getOne`, `runOn_getMany_all`: what is read by an id, and without a query.
* `runOn_step`: an operation is refused, reads, or changes one document of its entity.
-/
namespace EntityModel

namespace Service

variable {catalog : Catalog} {schema : Schema}

/-! ## Entities -/

/-- A name stands for the entity that has it up to case. -/
theorem entity_eq_ok_iff {name : String} : entity catalog name = .ok schema ↔
    schema ∈ catalog.entities ∧ lookupKey schema.name = lookupKey name := by
  rw [Catalog.entities, List.mem_filter, and_right_comm, ← Catalog.find_eq_ok_iff, entity]
  cases hf : catalog.find name with
  | error cause => simp
  | ok found =>
    cases he : found.isEntity with
    | false =>
      simp only [he, Bool.false_eq_true, if_false, Except.ok.injEq, reduceCtorEq, false_iff, not_and]
      rintro rfl
      simp [he]
    | true =>
      simp only [he, if_true, Except.ok.injEq, iff_self_and]
      rintro rfl
      exact he

theorem run_of_entity {name : String} (h : entity catalog name = .ok schema) (operation : Operation)
    (args : Args) (store : Store) :
    run catalog operation name args store = runOn schema operation args store := by
  rw [run, h]

/-- Under its own name an entity is found. -/
theorem run_of_mem (hm : schema ∈ catalog.entities) (operation : Operation) (args : Args)
    (store : Store) : run catalog operation schema.name args store
      = runOn schema operation args store :=
  run_of_entity (entity_eq_ok_iff.2 ⟨hm, rfl⟩) operation args store

/-! ## Outcomes -/

theorem outcome_store {α : Type} (toJson : α → Json) (answer : Except ResolveError α × Store) :
    (outcome toJson answer).2 = answer.2 := by
  obtain ⟨answer, store⟩ := answer
  cases answer <;> rfl

/-! ## Arguments -/

theorem argument_of_required {operation : Operation} {args : Args} {value : Json}
    (h : required operation schema args = .ok value) :
    Keyed.get? (operation.argumentOn schema).name args = some value := by
  unfold required at h
  simp only at h
  split at h
  · cases h
  · next found hfound =>
    split at h
    · cases h
    · cases h
      exact hfound

theorem document_of_required {operation : Operation} {args : Args} {document : Members}
    (h : requiredDocument operation schema args = .ok document) :
    Keyed.get? (operation.argumentOn schema).name args = some (.obj document) := by
  unfold requiredDocument at h
  cases hr : required operation schema args with
  | error e => rw [hr] at h; cases h
  | ok value =>
    rw [hr] at h
    cases value <;> cases h
    exact argument_of_required hr

theorem id_of_required {operation : Operation} {args : Args} {id : String}
    (h : requiredId operation schema args = .ok id) :
    Keyed.get? (operation.argumentOn schema).name args = some (.str id) := by
  unfold requiredId at h
  cases hr : required operation schema args with
  | error e => rw [hr] at h; cases h
  | ok value =>
    rw [hr] at h
    cases value <;> cases h
    exact argument_of_required hr

/-- An id that is given can be read. -/
theorem requiredId_of_argument {operation : Operation} {args : Args} {id : String}
    (h : Keyed.get? (operation.argumentOn schema).name args = some (.str id)) :
    requiredId operation schema args = .ok id := by
  simp [requiredId, required, h, Json.isNull, Bind.bind, Except.bind]

/-! ## Reading -/

theorem outcome_answer {α : Type} (toJson : α → Json) {answer : Except ResolveError α × Store}
    {value : α} (h : answer.1 = .ok value) : (outcome toJson answer).1 = .ok (toJson value) := by
  obtain ⟨_, store⟩ := answer
  cases h
  rfl

/-- What is read by an id, over a store that is not poisoned. -/
theorem runOn_getOne {args : Args} {id : String} {store : Store} (hp : store.poisoned = false)
    (h : Keyed.get? "id" args = some (.str id)) : (runOn schema .getOne args store).1
      = .ok (Store.pageOf (byId schema id)
          (store.matching schema.name [(schema.idKey, .str id)])).toJson := by
  have hid : requiredId .getOne schema args = .ok id := requiredId_of_argument h
  simp only [runOn, hid]
  exact outcome_answer _ (Store.find_answer hp ..)

/-- The store looks for what the query among the arguments says, and takes note of it. -/
theorem runOn_getMany {args : Args} {query : FindQuery} {store : Store}
    (h : queryOf args = .ok query) : runOn schema .getMany args store = outcome Page.toJson
      (store.find schema.name query (if query.populate then schema.joins else [])) := by
  simp [runOn, h]

/-- What is read without a query, over a store that is not poisoned. -/
theorem runOn_getMany_all {args : Args} {store : Store} (hp : store.poisoned = false)
    (h : Keyed.get? "q" args = none ∨ Keyed.get? "q" args = some .null) :
    (runOn schema .getMany args store).1
      = .ok (Store.allOf ((store.collection schema.name).map Prod.snd)).toJson := by
  have hq : queryOf args = .ok {} := by
    rcases h with h | h <;> simp [queryOf, h]
  rw [runOn_getMany hq, outcome_answer _ (Store.find_answer hp ..), Store.matching_nil,
    Store.pageOf_eq_allOf rfl (.inl rfl)]

/-! ## Steps -/

/-- What an operation on an entity can do: be refused, read, or change one document of the entity.
One that is refused may still have used up the number of an id. -/
inductive Step (schema : Schema) (args : Args) (store : Store) : Operation → Outcome → Prop
  | refused {operation : Operation} (cause : Error) {after : Store} :
      after.collections = store.collections → store.issued ≤ after.issued →
      after.poisoned = store.poisoned → Step schema args store operation (.error cause, after)
  | read {operation : Operation} (answer : Json) {after : Store} : operation.isQuery = true →
      after.collections = store.collections → after.issued = store.issued →
      after.poisoned = store.poisoned → Step schema args store operation (.ok answer, after)
  | inserted {document : Members} {id : String} : store.poisoned = false →
      Keyed.get? "doc" args = some (.obj document) → id = Store.idText (store.issued + 1) →
      Step schema args store .insert (.ok (.str id),
        { store with issued := store.issued + 1 }.setCollection schema.name
          (Keyed.insert id (Keyed.insert Store.idKey (.str id) document)
            (store.collection schema.name)))
  | updated {document held : Members} {id : String} : store.poisoned = false →
      Keyed.get? "doc" args = some (.obj document) →
      Keyed.get? Store.idKey document = some (.str id) →
      Keyed.get? id (store.collection schema.name) = some held →
      Step schema args store .update (.ok (.str id), store.setCollection schema.name
        (Keyed.insert id (Keyed.overlay held document) (store.collection schema.name)))
  | deleted {id : String} : store.poisoned = false → Keyed.get? "id" args = some (.str id) →
      Keyed.has id (store.collection schema.name) = true →
      Step schema args store .delete (.ok (.str id), store.setCollection schema.name
        (Keyed.erase id (store.collection schema.name)))

theorem step_find {args : Args} {store : Store} {operation : Operation} (query : FindQuery)
    (joins : List Join) (h : operation.isQuery = true) : Step schema args store operation
      (outcome Page.toJson (store.find schema.name query joins)) := by
  unfold Store.find
  simp only
  split
  · exact .refused _ rfl (Nat.le_refl _) rfl
  · exact .read _ h rfl rfl rfl

theorem step_insert {args : Args} {store : Store} {document : Members}
    (h : Keyed.get? "doc" args = some (.obj document)) : Step schema args store .insert
      (outcome .str (store.add schema.name document)) := by
  unfold Store.add
  simp only
  split
  · exact .refused _ rfl (Nat.le_succ _) rfl
  · next hp => exact .inserted (by simpa using hp) h rfl

theorem step_update {args : Args} {store : Store} {document : Members}
    (h : Keyed.get? "doc" args = some (.obj document)) : Step schema args store .update
      (outcome .str (store.update schema.name document)) := by
  unfold Store.update
  split
  · exact .refused _ rfl (Nat.le_refl _) rfl
  · next id hid =>
    have hkey : Keyed.get? Store.idKey document = some (.str id) := by
      cases hv : Keyed.get? Store.idKey document with
      | none => rw [hv] at hid; cases hid
      | some value => rw [hv] at hid; cases value <;> cases hid; rfl
    split
    · exact .refused _ rfl (Nat.le_refl _) rfl
    · next hp =>
      split
      · exact .refused _ rfl (Nat.le_refl _) rfl
      · next held hheld => exact .updated (by simpa using hp) h hkey hheld

theorem step_delete {args : Args} {store : Store} {id : String}
    (h : Keyed.get? "id" args = some (.str id)) : Step schema args store .delete
      (outcome .str (store.delete schema.name id)) := by
  unfold Store.delete
  split
  · exact .refused _ rfl (Nat.le_refl _) rfl
  · next hp =>
    split
    · next hhas => exact .deleted (by simpa using hp) h hhas
    · exact .refused _ rfl (Nat.le_refl _) rfl

/-- Every operation on an entity is one of these steps. -/
theorem runOn_step (schema : Schema) (operation : Operation) (args : Args) (store : Store) :
    Step schema args store operation (runOn schema operation args store) := by
  have refused (operation : Operation) (cause : Error) :
      Step schema args store operation (.error cause, store) := .refused cause rfl (Nat.le_refl _) rfl
  unfold runOn
  cases operation with
  | insert =>
    cases hd : requiredDocument .insert schema args with
    | error e => exact refused ..
    | ok document => exact step_insert (document_of_required hd)
  | update =>
    cases hd : requiredDocument .update schema args with
    | error e => exact refused ..
    | ok document => exact step_update (document_of_required hd)
  | getOne =>
    cases hi : requiredId .getOne schema args with
    | error e => exact refused ..
    | ok id => exact step_find _ _ rfl
  | getMany =>
    cases hq : queryOf args with
    | error e => exact refused ..
    | ok query => exact step_find _ _ rfl
  | delete =>
    cases hi : requiredId .delete schema args with
    | error e => exact refused ..
    | ok id => exact step_delete (id_of_required hi)

theorem Step.poisoned {args : Args} {store : Store} {operation : Operation} {outcome : Outcome}
    (h : Step schema args store operation outcome) : outcome.2.poisoned = store.poisoned := by
  cases h with
  | refused _ _ _ hp | read _ _ _ _ hp => exact hp
  | inserted | updated | deleted => rfl

/-- No operation poisons the store or mends it. -/
theorem run_poisoned (catalog : Catalog) (operation : Operation) (name : String) (args : Args)
    (store : Store) : (run catalog operation name args store).2.poisoned = store.poisoned := by
  unfold run
  cases entity catalog name with
  | error e => rfl
  | ok schema => exact (runOn_step schema operation args store).poisoned

end Service

end EntityModel
