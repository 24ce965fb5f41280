import EntityModel.Dispatch
import EntityModel.Proofs.Keyed
import EntityModel.Proofs.Service.Run
import Mathlib.Data.List.Nodup

/-!
# Operations by name

The name of an operation is its verb and a subject: the name of an entity, or its plural name
where many documents are read. Verbs differ in their first letter, so operations share a name only
if they do the same for one subject. A catalog keeps the names of its entities apart, but not the
plural names, and of operations with one name the table finds the one bound last.

Results:
* `Operation.nameOn_eq_iff`: when two operations have one name.
* `mem_handlers_iff`, `binds_iff`: what is bound.
* `get?_operations`: what a name is bound to.
* `resolve_nameOn_iff`: every operation is found by its name exactly when plural names differ.
-/
namespace EntityModel

namespace Operation

/-- The name of an entity that the name of the operation ends in. -/
def subject (operation : Operation) (schema : Schema) : String :=
  match operation with
  | getMany => schema.pluralName
  | _ => schema.name

theorem nameOn_eq (operation : Operation) (schema : Schema) :
    operation.nameOn schema = operation.verb ++ operation.subject schema := by
  cases operation <;> rfl

theorem verb_head? (operation : Operation) (text : String) :
    (operation.verb ++ text).toList.head? = operation.verb.toList.head? := by
  cases operation <;> simp [verb, String.toList_append]

/-- Verbs differ in their first letter. -/
theorem eq_of_verb_head? {a b : Operation} (h : a.verb.toList.head? = b.verb.toList.head?) :
    a = b := by
  cases a <;> cases b <;> first | rfl | exact absurd h (by decide)

/-- Operations share a name only if they do the same for one subject. -/
theorem nameOn_eq_iff {a b : Operation} {schema other : Schema} :
    a.nameOn schema = b.nameOn other ↔ a = b ∧ a.subject schema = b.subject other := by
  rw [nameOn_eq, nameOn_eq]
  constructor
  · intro h
    have hab : a = b := by
      apply eq_of_verb_head?
      rw [← verb_head? a (a.subject schema), h, verb_head?]
    subst hab
    exact ⟨rfl, by simpa using h⟩
  · rintro ⟨rfl, hs⟩
    rw [hs]

theorem nodup_all : all.Nodup := by decide

end Operation

namespace Dispatch

variable {catalog : Catalog} {schema : Schema}

/-- Bound is every operation, under the names of the entities. -/
theorem mem_handlers_iff {name : String} {operation : Operation} :
    (name, operation) ∈ (ofCatalog catalog).handlers ↔
      ∃ entity ∈ catalog.entities, entity.name = name := by
  simp [ofCatalog, operation.mem_all]

theorem binds_iff {name : String} {operation : Operation} :
    (ofCatalog catalog).binds name operation = true ↔
      ∃ entity ∈ catalog.entities, entity.name = name := by
  rw [binds, List.contains_iff_mem, mem_handlers_iff]

/-- An operation on an entity is carried out under the entity's own name. -/
theorem call_of_mem (h : schema ∈ catalog.entities) (operation : Operation) (args : Args)
    (store : Store) : (ofCatalog catalog).call schema.name operation args store
      = Service.run catalog operation schema.name args store := by
  rw [call, if_pos (binds_iff.2 ⟨schema, h, rfl⟩)]
  rfl

/-- Among the names bound for an entity, that of an operation on a schema is there if the subjects
agree. -/
theorem find?_bindings (operation : Operation) (schema other : Schema) :
    ((Operation.all.map fun op => (op.nameOn other, (other.name, op))).reverse.find?
        (·.1 == operation.nameOn schema)) =
      if operation.subject other = operation.subject schema
        then some (operation.nameOn other, (other.name, operation)) else none := by
  rw [← List.map_reverse, List.find?_map]
  have hname (op : Operation) : (op.nameOn other == operation.nameOn schema)
      = decide (op = operation ∧ operation.subject other = operation.subject schema) := by
    rw [Bool.eq_iff_iff, beq_iff_eq, decide_eq_true_iff, Operation.nameOn_eq_iff]
    constructor <;> (rintro ⟨rfl, hs⟩; exact ⟨rfl, hs⟩)
  simp only [Function.comp_def, hname]
  by_cases hs : operation.subject other = operation.subject schema
  · simp only [hs, and_true, if_true]
    cases operation <;> rfl
  · simp [hs]

/-- A name is bound for the last entity that has its subject. -/
theorem get?_operations (catalog : Catalog) (schema : Schema) (operation : Operation) :
    Keyed.get? (operation.nameOn schema) (ofCatalog catalog).operations =
      (catalog.entities.reverse.find? fun other =>
        operation.subject other == operation.subject schema).map fun other =>
          (other.name, operation) := by
  rw [ofCatalog, Keyed.get?_ofList, List.reverse_flatMap, List.find?_flatMap]
  simp only [Function.comp_apply, find?_bindings]
  induction catalog.entities.reverse with
  | nil => rfl
  | cons other rest ih =>
    by_cases hs : operation.subject other = operation.subject schema
    · simp [hs]
    · simpa [List.findSome?_cons, List.find?_cons, hs] using ih

/-- An operation is carried out on the last entity that has the subject of its name. -/
theorem resolve_nameOn (hm : schema ∈ catalog.entities) (operation : Operation) :
    ∃ last ∈ catalog.entities, operation.subject last = operation.subject schema ∧
      catalog.entities.reverse.find? (fun other =>
        operation.subject other == operation.subject schema) = some last ∧
      ∀ args store, (ofCatalog catalog).resolve (operation.nameOn schema) args store
        = (ofCatalog catalog).call last.name operation args store := by
  have hsome : (catalog.entities.reverse.find? fun other =>
      operation.subject other == operation.subject schema).isSome := by
    rw [List.find?_isSome]
    exact ⟨schema, List.mem_reverse.2 hm, beq_self_eq_true _⟩
  obtain ⟨last, hlast⟩ := Option.isSome_iff_exists.1 hsome
  refine ⟨last, List.mem_reverse.1 (List.mem_of_find?_eq_some hlast),
    by simpa using List.find?_some hlast, hlast, fun args store => ?_⟩
  rw [resolve, get?_operations, hlast]
  rfl

/-- Calls for documents of different entities differ in what the store sees. -/
theorem eq_of_call_eq {a b : Schema} (ha : a ∈ catalog.entities) (hb : b ∈ catalog.entities)
    (h : (ofCatalog catalog).call a.name .getMany [] {}
      = (ofCatalog catalog).call b.name .getMany [] {}) : a = b := by
  rw [call_of_mem ha, call_of_mem hb, Service.run_of_mem ha, Service.run_of_mem hb] at h
  have hfinds (entity : Schema) : (Service.runOn entity .getMany [] {}).2.finds
      = [⟨entity.name, {}, entity.joins⟩] := by
    simp [Service.runOn, Service.queryOf, Keyed.get?, Service.outcome_store, Store.find_finds]
  have hsame := congrArg (fun outcome => outcome.2.finds.map (·.schema)) h
  simp only [hfinds, List.map_cons, List.map_nil, List.cons.injEq, and_true] at hsame
  exact Catalog.entity_eq_of_name_eq ha hb hsame

/-- Plural names differ exactly when they belong to different entities. -/
theorem plural_nodup_iff (catalog : Catalog) : (catalog.entities.map (·.pluralName)).Nodup ↔
    ∀ a ∈ catalog.entities, ∀ b ∈ catalog.entities, a.pluralName = b.pluralName → a = b :=
  List.nodup_map_iff_inj_on catalog.keysDiffer_entities.nodup

/-- Entities that share the subject of an operation are one, if plural names differ. -/
theorem eq_of_subject_eq (hp : (catalog.entities.map (·.pluralName)).Nodup) {a b : Schema}
    (ha : a ∈ catalog.entities) (hb : b ∈ catalog.entities) {operation : Operation}
    (h : operation.subject a = operation.subject b) : a = b := by
  cases operation with
  | getMany => exact (plural_nodup_iff catalog).1 hp a ha b hb h
  | insert | update | getOne | delete => exact Catalog.entity_eq_of_name_eq ha hb h

theorem names_nodup_iff (catalog : Catalog) :
    (catalog.entities.flatMap fun schema => Operation.all.map (·.nameOn schema)).Nodup ↔
      (catalog.entities.map (·.pluralName)).Nodup := by
  rw [List.nodup_flatMap]
  constructor
  · intro ⟨_, hdisjoint⟩
    rw [List.Nodup, List.pairwise_map]
    refine hdisjoint.imp fun {a b} h he => ?_
    have hname : Operation.getMany.nameOn a = Operation.getMany.nameOn b :=
      Operation.nameOn_eq_iff.2 ⟨rfl, he⟩
    exact h (List.mem_map_of_mem (Operation.mem_all .getMany))
      (hname ▸ List.mem_map_of_mem (Operation.mem_all .getMany))
  · intro hp
    refine ⟨fun schema _ => ?_, ?_⟩
    · refine (List.nodup_map_iff_inj_on Operation.nodup_all).2 fun op _ op' _ h => ?_
      exact (Operation.nameOn_eq_iff.1 h).1
    · refine catalog.keysDiffer_entities.imp_of_mem fun {a b} ha hb hkey name hna hnb => ?_
      obtain ⟨op, -, rfl⟩ := List.mem_map.1 hna
      obtain ⟨op', -, hname⟩ := List.mem_map.1 hnb
      obtain ⟨rfl, hsubject⟩ := Operation.nameOn_eq_iff.1 hname
      rw [eq_of_subject_eq hp ha hb hsubject.symm] at hkey
      exact hkey rfl

/-- **Operations by name.** An operation on an entity is found by its name, and carried out on the
last entity with the name's subject. This is the entity itself but where many documents are read,
and there for all entities exactly when plural names differ, which is when all names of operations
differ. -/
theorem resolve_nameOn_iff (catalog : Catalog) :
    (∀ schema ∈ catalog.entities, ∀ operation, ∃ last ∈ catalog.entities,
      catalog.entities.reverse.find? (fun other =>
          operation.subject other == operation.subject schema) = some last ∧
        (operation ≠ .getMany → last = schema) ∧
        ∀ args store, (ofCatalog catalog).resolve (operation.nameOn schema) args store
          = (ofCatalog catalog).call last.name operation args store) ∧
      ((∀ schema ∈ catalog.entities, ∀ operation args store,
          (ofCatalog catalog).resolve (operation.nameOn schema) args store
            = (ofCatalog catalog).call schema.name operation args store) ↔
        (catalog.entities.map (·.pluralName)).Nodup) ∧
      ((catalog.entities.flatMap fun schema => Operation.all.map (·.nameOn schema)).Nodup ↔
        (catalog.entities.map (·.pluralName)).Nodup) := by
  refine ⟨?_, ⟨?_, ?_⟩, names_nodup_iff catalog⟩
  · intro schema hm operation
    obtain ⟨last, hlm, hsubject, hfind, hresolve⟩ := resolve_nameOn hm operation
    refine ⟨last, hlm, hfind, fun hop => ?_, hresolve⟩
    apply Catalog.entity_eq_of_name_eq hlm hm
    cases operation with
    | getMany => exact absurd rfl hop
    | insert | update | getOne | delete => exact hsubject
  · intro h
    refine (plural_nodup_iff catalog).2 fun a ha b hb he => ?_
    have hname : Operation.getMany.nameOn a = Operation.getMany.nameOn b :=
      Operation.nameOn_eq_iff.2 ⟨rfl, he⟩
    apply eq_of_call_eq ha hb
    rw [← h a ha, ← h b hb, hname]
  · intro hp schema hm operation args store
    obtain ⟨last, hlm, hsubject, -, hresolve⟩ := resolve_nameOn hm operation
    rw [hresolve, eq_of_subject_eq hp hlm hm hsubject]

/-! ## Entities that share a plural name -/

namespace Sample

def person : Schema where
  serial := 0
  name := "Person"
  pluralName := "People"
  description := none
  isEntity := true
  fields := [{ Field.scalar "name" .string with owner := some "Person" }]

/-- Another entity whose documents are called people. -/
def human : Schema where
  serial := 1
  name := "Human"
  pluralName := "People"
  description := none
  isEntity := true
  fields := [{ Field.scalar "name" .string with owner := some "Human" }]

theorem person_frozen : person.Frozen := by
  refine (Schema.frozen_iff person).2 ⟨by decide, ?_, by decide⟩
  simp [person, Field.scalar, Field.ofType, Field.target?, FieldType.target?]

theorem human_frozen : human.Frozen := by
  refine (Schema.frozen_iff human).2 ⟨by decide, ?_, by decide⟩
  simp [human, Field.scalar, Field.ofType, Field.target?, FieldType.target?]

/-- Persons and humans make a catalog: only names of types are kept apart. -/
def people : Catalog := ⟨[person, human], by decide⟩

end Sample

open Sample in
/-- Two frozen schemas that make a catalog: what is found by the name for reading all persons is
not that operation, but the one of the entity bound last. -/
theorem resolve_people_ne : person.Frozen ∧ human.Frozen ∧
    Catalog.ofSchemas [person, human] = .ok people ∧ person ∈ people.entities ∧
    (ofCatalog people).resolve (Operation.getMany.nameOn person) [] {}
      ≠ (ofCatalog people).call person.name .getMany [] {} := by
  have hp : person ∈ people.entities := by decide
  have hh : human ∈ people.entities := by decide
  refine ⟨person_frozen, human_frozen, rfl, hp, fun h => ?_⟩
  obtain ⟨last, -, -, hlast, hresolve⟩ := resolve_nameOn hp .getMany
  have hlast' : last = human := Option.some.inj (hlast.symm.trans (by decide))
  rw [hresolve, hlast'] at h
  exact absurd (eq_of_call_eq hh hp h) (by decide)

end Dispatch

end EntityModel
