import EntityModel.Proofs.Catalog.Lookup
import EntityModel.Proofs.Dispatch
import EntityModel.Proofs.Service.Session

/-!
# Calls over the table and past it

The service takes the name of an entity in any case. The table takes it only as it is registered,
and goes on to the service with this very name. The service leaves the name behind once it has the
entity, so both ways end in one call, and the store hears of the registered name alone.

Results:
* `Service.run_answersTo`: an operation under any name of an entity is the one on the entity.
* `Service.runOn_confined`: it turns to the store under the registered name alone.
* `Dispatch.handlers_nodup`: a table binds nothing twice.
* `Dispatch.call_of_not_mem`: what it does with a name that is no entity's.
* `Dispatch.direct_eq_call`: both ways are one.
-/
namespace EntityModel

variable {catalog : Catalog} {isFinal : List Char → List Char → Bool}

/-- From `before` to `after` the store was asked and changed under one name only. -/
structure Store.Confined (name : String) (before after : Store) : Prop where
  finds : ∃ calls, after.finds = before.finds ++ calls ∧ ∀ call ∈ calls, call.schema = name
  others : ∀ other, other ≠ name → after.collection other = before.collection other

namespace Service

/-- An operation under any name of an entity is the operation on the entity. -/
theorem run_answersTo {schema : Schema} (frozen : schema.Frozen) (hm : schema ∈ catalog.entities)
    {name : String} (h : schema.AnswersTo isFinal name) (operation : Operation) (args : Args)
    (store : Store) : run catalog operation name args store = runOn schema operation args store :=
  run_of_entity (entity_eq_ok_iff.2 ⟨hm, (Schema.answersTo_iff frozen).1 h⟩) operation args store

/-- The queries that an operation on an entity puts to the store are for documents of the entity. -/
theorem runOn_finds (schema : Schema) (operation : Operation) (args : Args) (store : Store) :
    ∃ calls, (runOn schema operation args store).2.finds = store.finds ++ calls ∧
      ∀ call ∈ calls, call.schema = schema.name := by
  -- only the two operations that read put a query, and each puts one
  have unseen {after : Store} (h : after.finds = store.finds) :
      ∃ calls, after.finds = store.finds ++ calls ∧ ∀ call ∈ calls, call.schema = schema.name :=
    ⟨[], by rw [h, List.append_nil], by simp⟩
  have seen (query : FindQuery) (joins : List Join) :
      ∃ calls, (outcome Page.toJson (store.find schema.name query joins)).2.finds
        = store.finds ++ calls ∧ ∀ call ∈ calls, call.schema = schema.name :=
    ⟨[⟨schema.name, query, joins⟩], by rw [outcome_store, Store.find_finds], by simp⟩
  unfold runOn
  cases operation with
  | insert =>
    cases requiredDocument .insert schema args with
    | error e => exact unseen rfl
    | ok document => exact unseen (by rw [outcome_store, Store.add_finds])
  | update =>
    cases requiredDocument .update schema args with
    | error e => exact unseen rfl
    | ok document => exact unseen (by rw [outcome_store, Store.update_finds])
  | getOne =>
    cases requiredId .getOne schema args with
    | error e => exact unseen rfl
    | ok id => exact seen ..
  | getMany =>
    cases queryOf args with
    | error e => exact unseen rfl
    | ok query => exact seen ..
  | delete =>
    cases requiredId .delete schema args with
    | error e => exact unseen rfl
    | ok id => exact unseen (by rw [outcome_store, Store.delete_finds])

theorem runOn_confined (schema : Schema) (operation : Operation) (args : Args) (store : Store) :
    store.Confined schema.name (runOn schema operation args store).2 where
  finds := runOn_finds schema operation args store
  others _ hne := ((runOn_step schema operation args store).other hne).1

end Service

namespace Dispatch

theorem handlers_nodup (catalog : Catalog) : (ofCatalog catalog).handlers.Nodup := by
  rw [ofCatalog, List.nodup_flatMap]
  refine ⟨fun schema _ => Operation.nodup_all.map fun a b h => (Prod.mk.inj h).2, ?_⟩
  refine catalog.keysDiffer_entities.imp fun {a b} hkey handler ha hb => ?_
  obtain ⟨_, -, rfl⟩ := List.mem_map.1 ha
  obtain ⟨_, -, heq⟩ := List.mem_map.1 hb
  exact name_ne_of_key_ne hkey (Prod.mk.inj heq).1.symm

/-- A name that is bound for nothing is refused before the store is reached. -/
theorem call_of_not_mem {name : String} (h : ∀ schema ∈ catalog.entities, schema.name ≠ name)
    (operation : Operation) (args : Args) (store : Store) :
    (ofCatalog catalog).call name operation args store
      = (.error (.resolve (.unknownOperation (operation.verb ++ " on " ++ name))), store) := by
  have hunbound : ¬ (ofCatalog catalog).binds name operation = true := by
    rw [binds_iff]
    rintro ⟨schema, hm, hname⟩
    exact h schema hm hname
  rw [call, if_neg hunbound]

/-- **Two ways to call.** Whatever tells where a word ends: a call of the service under any name that
an entity has up to case is the call over the table under the name it is registered by, in answer
and store, and leaves its traces under this name alone. Any other name the table refuses, and the
store stays as it is. The table has five handlers for each entity, all different. -/
theorem direct_eq_call (catalog : Catalog) (frozen : ∀ schema ∈ catalog.schemas, schema.Frozen)
    (isFinal : List Char → List Char → Bool) :
    (∀ schema ∈ catalog.entities, ∀ name, schema.AnswersTo isFinal name →
      ∀ operation args store,
        Service.run catalog operation name args store
          = (ofCatalog catalog).call schema.name operation args store ∧
        store.Confined schema.name (Service.run catalog operation name args store).2) ∧
    (∀ name, (∀ schema ∈ catalog.entities, schema.name ≠ name) → ∀ operation args store,
      (ofCatalog catalog).call name operation args store
        = (.error (.resolve (.unknownOperation (operation.verb ++ " on " ++ name))), store)) ∧
    (∀ name operation, (name, operation) ∈ (ofCatalog catalog).handlers ↔
      ∃ schema ∈ catalog.entities, schema.name = name) ∧
    (ofCatalog catalog).handlers.Nodup ∧
    (ofCatalog catalog).size = 5 * catalog.entities.length := by
  refine ⟨?_, fun name h => call_of_not_mem h, fun name operation => mem_handlers_iff,
    handlers_nodup catalog, size_ofCatalog catalog⟩
  intro schema hm name h operation args store
  have hrun : Service.run catalog operation name args store
      = Service.runOn schema operation args store :=
    Service.run_answersTo (frozen schema (List.mem_filter.1 hm).1) hm h operation args store
  rw [hrun, call_of_mem hm, Service.run_of_mem hm]
  exact ⟨rfl, Service.runOn_confined schema operation args store⟩

/-- Workflows are found under any spelling by the service, and under their own name by the table. -/
theorem direct_eq_call_sample :
    Service.run Schema.Sample.catalog .getMany "wor\u212aFLOW" [] {}
      = (ofCatalog Schema.Sample.catalog).call "Workflow" .getMany [] {} ∧
    (ofCatalog Schema.Sample.catalog).call "WORKFLOW" .getMany [] {}
      = (.error (.resolve (.unknownOperation "find on WORKFLOW")), {}) := by
  obtain ⟨hdirect, hrefused, -⟩ :=
    direct_eq_call Schema.Sample.catalog Schema.Sample.schemas_frozen fun _ _ => true
  refine ⟨?_, ?_⟩
  · exact (hdirect Schema.Sample.workflow (by decide) _ (by decide) .getMany [] {}).1
  · exact hrefused "WORKFLOW" (by decide) .getMany [] {}

end Dispatch

end EntityModel
