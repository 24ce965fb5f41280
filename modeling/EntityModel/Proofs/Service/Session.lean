import EntityModel.Proofs.Service.Change
import EntityModel.Proofs.Service.Run

/-!
# Sessions

A session is a run of calls over a store that starts empty, each call with its answer. The answers
alone tell how the documents of an entity changed, and what is read afterwards is what these
changes leave, whatever else was called or refused in between.

Results:
* `run_reports`: what one call does to the documents of an entity is what its answer reports.
* `sound_ofCalls`: so the documents of an entity are what the reported changes leave.
* `reads_live`: a document is read by its id exactly when it lives, and all of them in order of id.
-/
namespace EntityModel

/-- A call of an operation on the entity with a name. -/
structure Call where
  operation : Operation
  name : String
  args : Args

/-- A call and its answer. -/
structure Event where
  call : Call
  answer : Except Error Json

/-- The calls so far with their answers, and the store after them. -/
structure Session where
  events : List Event := []
  store : Store := {}

namespace Call

/-- The document among the arguments. -/
def document? (call : Call) : Option Members := (Keyed.get? "doc" call.args).bind Json.members?

/-- The id among the arguments. -/
def id? (call : Call) : Option String := (Keyed.get? "id" call.args).bind Json.text?

/-- The keys of the document among the arguments ascend, as those of every object that is read. -/
def Ordered (call : Call) : Prop := ∀ document, call.document? = some document →
  Keyed.Ascending document

instance (call : Call) : Decidable call.Ordered :=
  match h : call.document? with
  | none => isTrue (by simp [Ordered, h])
  | some document => decidable_of_iff (Keyed.Ascending document) (by simp [Ordered, h])

end Call

namespace Event

/-- The change to the documents of an entity that an answer reports. -/
def change? (schema : Schema) (event : Event) : Option Change :=
  if lookupKey event.call.name = lookupKey schema.name then
    match event.call.operation, event.answer with
    | .insert, .ok answer =>
      answer.text?.bind fun id => event.call.document?.map fun document => .insert id document
    | .update, .ok _ =>
      event.call.document?.bind fun document =>
        ((Keyed.get? Store.idKey document).bind Json.text?).map fun id => .update id document
    | .delete, .ok _ => event.call.id?.map .delete
    | _, _ => none
  else none

theorem change?_of_ne {schema : Schema} {event : Event}
    (h : lookupKey event.call.name ≠ lookupKey schema.name) : event.change? schema = none :=
  if_neg h

theorem change?_error (schema : Schema) (call : Call) (cause : Error) :
    change? schema ⟨call, .error cause⟩ = none := by
  unfold change?
  split
  · cases call.operation <;> rfl
  · rfl

theorem change?_query (schema : Schema) {call : Call} (h : call.operation.isQuery = true)
    (answer : Except Error Json) : change? schema ⟨call, answer⟩ = none := by
  unfold change?
  split
  · cases ho : call.operation <;> rw [ho] at h <;> first | rfl | cases h
  · rfl

/-- What an answer reports to be laid over a document carries the document's id. -/
theorem change?_sound {schema : Schema} {event : Event} (ho : event.call.Ordered) {change : Change}
    (h : event.change? schema = some change) : change.Sound := by
  cases change with
  | insert | delete => trivial
  | update id document =>
    unfold change? at h
    split at h
    · split at h
      · obtain ⟨_, -, h⟩ := Option.bind_eq_some_iff.1 h
        obtain ⟨_, -, h⟩ := Option.map_eq_some_iff.1 h
        cases h
      · obtain ⟨found, hfound, h⟩ := Option.bind_eq_some_iff.1 h
        obtain ⟨key, hkey, h⟩ := Option.map_eq_some_iff.1 h
        obtain ⟨value, hvalue, htext⟩ := Option.bind_eq_some_iff.1 hkey
        cases h
        cases value <;> cases htext
        exact ⟨ho _ hfound, hvalue⟩
      · obtain ⟨_, -, h⟩ := Option.map_eq_some_iff.1 h
        cases h
      · cases h
    · cases h

end Event

/-! ## One call -/

namespace Service

/-- What an operation does to the documents of an entity is what its answer reports. -/
structure Reports (schema : Schema) (store : Store) (event : Event) (after : Store) : Prop where
  /-- The documents are those before, after the change that is reported. -/
  collection : after.collection schema.name
    = ((event.change? schema).toList).foldl Change.apply (store.collection schema.name)
  /-- No number of an id is used again. -/
  issued : store.issued ≤ after.issued
  /-- A document is put in under the next id. -/
  inserted : ∀ id, (event.change? schema).bind Change.inserted? = some id →
    id = Store.idText (store.issued + 1) ∧ after.issued = store.issued + 1

variable {catalog : Catalog} {schema : Schema}

theorem Reports.silent {store after : Store} {event : Event} (h : event.change? schema = none)
    (hc : after.collection schema.name = store.collection schema.name)
    (hi : store.issued ≤ after.issued) : Reports schema store event after where
  collection := by simp [h, hc]
  issued := hi
  inserted := by simp [h]

/-- An operation on an entity does not touch documents of another. -/
theorem Step.other {args : Args} {store : Store} {operation : Operation} {outcome : Outcome}
    (h : Step schema args store operation outcome) {name : String} (hne : name ≠ schema.name) :
    outcome.2.collection name = store.collection name ∧ store.issued ≤ outcome.2.issued := by
  cases h with
  | refused _ hc hi _ => exact ⟨Store.collection_congr hc name, hi⟩
  | read _ _ hc hi _ => exact ⟨Store.collection_congr hc name, Nat.le_of_eq hi.symm⟩
  | inserted _ _ _ => exact ⟨Store.collection_setCollection_of_ne hne .., Nat.le_succ _⟩
  | updated _ _ _ _ => exact ⟨Store.collection_setCollection_of_ne hne .., Nat.le_refl _⟩
  | deleted _ _ _ => exact ⟨Store.collection_setCollection_of_ne hne .., Nat.le_refl _⟩

theorem Step.reports {call : Call} {store : Store} {outcome : Outcome}
    (h : Step schema call.args store call.operation outcome)
    (hn : lookupKey call.name = lookupKey schema.name) :
    Reports schema store ⟨call, outcome.1⟩ outcome.2 := by
  obtain ⟨operation, name, args⟩ := call
  cases h with
  | refused cause hc hi _ =>
    exact .silent (Event.change?_error ..) (Store.collection_congr hc _) hi
  | read answer hq hc hi _ =>
    exact .silent (Event.change?_query _ hq _) (Store.collection_congr hc _) (Nat.le_of_eq hi.symm)
  | @inserted document id _ hd hid =>
    subst hid
    have hchange : Event.change? schema
        ⟨⟨.insert, name, args⟩, .ok (.str (Store.idText (store.issued + 1)))⟩
          = some (.insert (Store.idText (store.issued + 1)) document) := by
      simp [Event.change?, hn, Call.document?, hd, Json.text?, Json.members?]
    refine ⟨?_, Nat.le_succ _, ?_⟩
    · rw [hchange]
      exact Store.collection_setCollection_self ..
    · simp [hchange, Change.inserted?, eq_comm]
  | @updated document held id _ hd hid hheld =>
    have hchange : Event.change? schema ⟨⟨.update, name, args⟩, .ok (.str id)⟩
        = some (.update id document) := by
      simp [Event.change?, hn, Call.document?, hd, hid, Json.text?, Json.members?]
    exact ⟨by simp [hchange, Change.apply, hheld], Nat.le_refl _,
      by simp [hchange, Change.inserted?]⟩
  | @deleted id _ hid hhas =>
    have hchange : Event.change? schema ⟨⟨.delete, name, args⟩, .ok (.str id)⟩
        = some (.delete id) := by
      simp [Event.change?, hn, Call.id?, hid, Json.text?]
    exact ⟨by simp [hchange, Change.apply], Nat.le_refl _, by simp [hchange, Change.inserted?]⟩

/-- What one call does to the documents of an entity is what its answer reports. -/
theorem run_reports (hm : schema ∈ catalog.entities) (call : Call) (store : Store) :
    let outcome := run catalog call.operation call.name call.args store
    Reports schema store ⟨call, outcome.1⟩ outcome.2 := by
  intro outcome
  cases he : entity catalog call.name with
  | error cause =>
    have ho : outcome = (.error cause, store) := by simp only [outcome, run, he]
    rw [ho]
    exact .silent (Event.change?_error ..) rfl (Nat.le_refl _)
  | ok found =>
    obtain ⟨hfm, hfn⟩ := entity_eq_ok_iff.1 he
    have ho : outcome = runOn found call.operation call.args store := run_of_entity he ..
    have hstep : Step found call.args store call.operation outcome := ho ▸ runOn_step ..
    by_cases hs : found = schema
    · subst hs
      exact hstep.reports hfn.symm
    · have hkey : lookupKey call.name ≠ lookupKey schema.name := fun hk =>
        hs (catalog.keysDiffer_entities.eq_of_key_eq hfm hm (hfn.trans hk))
      have hname : schema.name ≠ found.name := fun hn =>
        hs (Catalog.entity_eq_of_name_eq hfm hm hn.symm)
      exact .silent (Event.change?_of_ne hkey) (hstep.other hname).1 (hstep.other hname).2

end Service

/-! ## All calls -/

namespace Session

/-- One more call. -/
def next (catalog : Catalog) (session : Session) (call : Call) : Session :=
  let outcome := Service.run catalog call.operation call.name call.args session.store
  ⟨session.events ++ [⟨call, outcome.1⟩], outcome.2⟩

/-- Calls made one after the other, over a store that starts empty. -/
def ofCalls (catalog : Catalog) (calls : List Call) : Session := calls.foldl (next catalog) {}

/-- The changes to the documents of an entity that the answers report. -/
def changes (session : Session) (schema : Schema) : List Change :=
  session.events.filterMap (·.change? schema)

/-- The ids under which the documents of an entity were put in. -/
def inserted (session : Session) (schema : Schema) : List String :=
  (session.changes schema).filterMap Change.inserted?

/-- What holds of an entity throughout a session. -/
structure Sound (session : Session) (schema : Schema) : Prop where
  unpoisoned : session.store.poisoned = false
  /-- The documents are what the reported changes leave. -/
  replayed : session.store.collection schema.name = Change.replay (session.changes schema)
  /-- What is laid over a document carries the document's id. -/
  patches : ∀ change ∈ session.changes schema, change.Sound
  /-- Documents are put in under ids of their own, and none of these will come again. -/
  fresh : (session.inserted schema).Nodup
  issued : ∀ id ∈ session.inserted schema, ∃ n ≤ session.store.issued, id = Store.idText n

variable {catalog : Catalog} {schema : Schema}

theorem changes_next (catalog : Catalog) (session : Session) (call : Call) (schema : Schema) :
    (session.next catalog call).changes schema = session.changes schema ++ (Event.change? schema
      ⟨call, (Service.run catalog call.operation call.name call.args session.store).1⟩).toList := by
  simp only [changes, next, List.filterMap_append]
  cases h : Event.change? schema
    ⟨call, (Service.run catalog call.operation call.name call.args session.store).1⟩ <;> simp [h]

theorem sound_empty (schema : Schema) : Sound {} schema where
  unpoisoned := rfl
  replayed := rfl
  patches := by simp [changes]
  fresh := by simp [inserted, changes]
  issued := by simp [inserted, changes]

theorem inserted_next (catalog : Catalog) (session : Session) (call : Call) (schema : Schema) :
    (session.next catalog call).inserted schema = session.inserted schema ++
      ((Event.change? schema ⟨call, (Service.run catalog call.operation call.name call.args
        session.store).1⟩).bind Change.inserted?).toList := by
  rw [inserted, changes_next, List.filterMap_append, inserted]
  congr 1
  cases Event.change? schema _ with
  | none => rfl
  | some change => cases hi : change.inserted? <;> simp [hi]

theorem Sound.next (hm : schema ∈ catalog.entities) {session : Session} {call : Call}
    (h : session.Sound schema) (ho : call.Ordered) : (session.next catalog call).Sound schema := by
  have hreports := Service.run_reports hm call session.store
  refine ⟨(Service.run_poisoned ..).trans h.unpoisoned, ?_, ?_, ?_, ?_⟩
  · rw [changes_next, Change.replay_append, ← h.replayed]
    exact hreports.collection
  · rw [changes_next]
    intro change hc
    rcases List.mem_append.1 hc with hc | hc
    · exact h.patches change hc
    · exact Event.change?_sound ho (Option.mem_toList.1 hc)
  · rw [inserted_next, List.nodup_append]
    refine ⟨h.fresh, by cases Option.bind .. <;> simp, ?_⟩
    rintro id hid _ hnew rfl
    obtain ⟨n, hn, rfl⟩ := h.issued id hid
    have hlast := Store.idText_injective (hreports.inserted _ (Option.mem_toList.1 hnew)).1
    omega
  · rw [inserted_next]
    intro id hid
    rcases List.mem_append.1 hid with hid | hid
    · obtain ⟨n, hn, rfl⟩ := h.issued id hid
      exact ⟨n, Nat.le_trans hn hreports.issued, rfl⟩
    · obtain ⟨hlast, hissued⟩ := hreports.inserted id (Option.mem_toList.1 hid)
      exact ⟨session.store.issued + 1, Nat.le_of_eq hissued.symm, hlast⟩

/-- Throughout a session the documents of an entity are what the answers report. -/
theorem sound_ofCalls (hm : schema ∈ catalog.entities) {calls : List Call}
    (ho : ∀ call ∈ calls, call.Ordered) : (ofCalls catalog calls).Sound schema := by
  have hfold : ∀ session : Session, session.Sound schema →
      (calls.foldl (Session.next catalog) session).Sound schema := by
    induction calls with
    | nil => exact fun _ h => h
    | cons call rest ih =>
      intro session h
      exact ih (fun other hr => ho other (List.mem_cons_of_mem _ hr)) _
        (h.next hm (ho call (List.mem_cons_self ..)))
  exact hfold {} (sound_empty schema)

/-! ## What is read -/

section

variable {session : Session}

/-- The entity is identified by the key under which the store labels its documents. -/
theorem idKey_eq (h : ∀ field, schema.idField? = some field → field.name = "_id") :
    schema.idKey = Store.idKey := by
  unfold Schema.idKey
  cases hf : schema.idField? with
  | none => rfl
  | some field => exact h field hf

theorem Sound.get?_iff (h : session.Sound schema) {id : String} {document : Members} :
    Keyed.get? id (session.store.collection schema.name) = some document ↔
      Change.Live (session.changes schema) id document := by
  rw [h.replayed, Change.get?_replay_iff h.fresh]

theorem Sound.ascending (h : session.Sound schema) :
    Keyed.Ascending (session.store.collection schema.name) :=
  h.replayed ▸ Change.ascending_replay _

theorem Sound.labelled (h : session.Sound schema) :
    Store.Labelled (session.store.collection schema.name) :=
  h.replayed ▸ Change.labelled_replay h.patches

/-- By its id the document that is filed under it is read, if there is one. -/
theorem Sound.getOne (h : session.Sound schema) (hkey : schema.idKey = Store.idKey) {args : Args}
    {id : String} (hid : Keyed.get? "id" args = some (.str id)) :
    (Service.runOn schema .getOne args session.store).1 = .ok (Store.allOf
      (Keyed.get? id (session.store.collection schema.name)).toList).toJson := by
  rw [Service.runOn_getOne h.unpoisoned hid, hkey, Store.matching_id h.ascending h.labelled,
    Store.pageOf_eq_allOf rfl]
  exact .inr (by cases Keyed.get? id _ <;> simp [Service.byId])

end

/-- **Reading what was written.** After any calls, a document of an entity that is identified by
`_id` is read by its id exactly when it lives by what the calls were answered; without a query all
that live are read, in order of id. -/
theorem reads_live (hm : schema ∈ catalog.entities)
    (hfield : ∀ field, schema.idField? = some field → field.name = "_id")
    {calls : List Call} (ordered : ∀ call ∈ calls, call.Ordered) :
    let session := ofCalls catalog calls
    let Live := Change.Live (session.changes schema)
    ∀ name, lookupKey name = lookupKey schema.name → ∀ args,
      (∀ id, Keyed.get? "id" args = some (.str id) →
        let answer := (Service.run catalog .getOne name args session.store).1
        (∀ document, Live id document → answer
          = .ok (Page.toJson { data := [.obj document], count := 1, totalCount := some 1 })) ∧
        ((∀ document, ¬ Live id document) → answer
          = .ok (Page.toJson { data := [], count := 0, totalCount := some 0 }))) ∧
      (Keyed.get? "q" args = none ∨ Keyed.get? "q" args = some .null →
        ∃ living : Keyed Members, living.Ascending ∧
          (∀ id document, (id, document) ∈ living ↔ Live id document) ∧
          (Service.run catalog .getMany name args session.store).1
            = .ok (Page.toJson
              { data := living.map fun entry => .obj entry.2
                count := living.length.toUInt64
                totalCount := some living.length.toUInt64 })) := by
  intro session Live name hname args
  have hsound : session.Sound schema := sound_ofCalls hm ordered
  have hentity : Service.entity catalog name = .ok schema :=
    Service.entity_eq_ok_iff.2 ⟨hm, hname.symm⟩
  constructor
  · intro id hid answer
    have hanswer : answer = .ok (Store.allOf
        (Keyed.get? id (session.store.collection schema.name)).toList).toJson := by
      simp only [answer, Service.run_of_entity hentity]
      exact hsound.getOne (idKey_eq hfield) hid
    constructor
    · intro document hlive
      rw [hanswer, hsound.get?_iff.2 hlive]
      rfl
    · intro hnone
      have hget : Keyed.get? id (session.store.collection schema.name) = none :=
        Option.eq_none_iff_forall_ne_some.2 fun document h => hnone document (hsound.get?_iff.1 h)
      rw [hanswer, hget]
      rfl
  · intro hq
    refine ⟨session.store.collection schema.name, hsound.ascending, fun id document => ?_, ?_⟩
    · rw [← Keyed.get?_eq_some_iff hsound.ascending, hsound.get?_iff]
    · rw [Service.run_of_entity hentity, Service.runOn_getMany_all hsound.unpoisoned hq]
      simp [Store.allOf, Function.comp_def]

/-- Calls on workflows and a category: documents are put in, laid over and taken out, under names in
either case, and two calls are refused. -/
def sample : List Call :=
  [⟨.insert, "Workflow", [("doc", .obj [("label", .str "draft")])]⟩,
    ⟨.insert, "category", [("doc", .obj [("label", .str "tools")])]⟩,
    ⟨.update, "workflow", [("doc", .obj [("_id", .str "id1"), ("label", .str "final")])]⟩,
    ⟨.delete, "Workflow", [("id", .str "id2")]⟩,
    ⟨.insert, "Step", [("doc", .obj [])]⟩,
    ⟨.insert, "Workflow", [("doc", .obj [])]⟩,
    ⟨.delete, "Workflow", [("id", .str "id3")]⟩]

/-- After the sample calls the first workflow is read as it was laid over, and the second is gone. -/
theorem reads_live_sample :
    let read id := (Service.run Schema.Sample.catalog .getOne "WORKFLOW" [("id", .str id)]
      (ofCalls Schema.Sample.catalog sample).store).1
    (∀ call ∈ sample, call.Ordered) ∧
      read "id1" = .ok (Page.toJson
        { data := [.obj [("_id", .str "id1"), ("label", .str "final")]]
          count := 1, totalCount := some 1 }) ∧
      read "id3" = .ok (Page.toJson { data := [], count := 0, totalCount := some 0 }) := by
  have hm : Schema.Sample.workflow ∈ Schema.Sample.catalog.entities := by decide
  have hfield : ∀ field, Schema.Sample.workflow.idField? = some field → field.name = "_id" := by
    rintro field ⟨⟩
    rfl
  have ordered : ∀ call ∈ sample, call.Ordered := by decide
  have hchanges : (ofCalls Schema.Sample.catalog sample).changes Schema.Sample.workflow =
      [.insert "id1" [("label", .str "draft")],
        .update "id1" [("_id", .str "id1"), ("label", .str "final")],
        .insert "id3" [], .delete "id3"] := rfl
  have hread := reads_live hm hfield ordered "WORKFLOW" (by decide)
  rw [hchanges] at hread
  refine ⟨ordered, ?_, ?_⟩
  · have hlive : Change.Live [.insert "id1" [("label", .str "draft")],
        .update "id1" [("_id", .str "id1"), ("label", .str "final")], .insert "id3" [],
        .delete "id3"] "id1" [("_id", .str "id1"), ("label", .str "final")] :=
      ⟨[], _, _, rfl, by simp, rfl⟩
    exact ((hread [("id", .str "id1")]).1 "id1" rfl).1 _ hlive
  · refine ((hread [("id", .str "id3")]).1 "id3" rfl).2 fun document h => ?_
    rw [← Change.get?_replay_iff (by decide)] at h
    cases h

end Session

end EntityModel
