import EntityModel.FindQuery.Reader
import EntityModel.Proofs.Json.RoundTrip
import EntityModel.Proofs.Service.Run
import EntityModel.Request

/-!
# Find queries travel

A query is sent as an object whose filter is text, with what is absent left out. What arrives is
the query again, but for a key to sort by that is blank, which counts as none. So a request for
the documents of an entity makes the store look for just what was asked for.

Results:
* `readFilter_render`: a filter reads back from its text.
* `ofJson_toJson`: a query reads back from its JSON form.
* `getMany_roundTrip`: the store receives the query that a client sent.
-/
namespace EntityModel.FindQuery

open Service (run_of_mem runOn_getMany outcome_store)
open Store (find_finds)

/-- The query as it arrives: a blank key to sort by is none. -/
def normalized (query : FindQuery) : FindQuery :=
  { query with sortBy := query.sortBy.filter fun key => !Text.isBlankText key }

/-! ## The parts of a query -/

/-- What is sent of a query. -/
def sent (query : FindQuery) : List (String × Json) :=
  [("top", .int query.top.toNat), ("skip", .int query.skip.toNat)]
    ++ Json.optional "sortBy" query.sortBy
    ++ (if query.filter.isEmpty then [] else [("filterBy", .str (Json.obj query.filter).render)])
    ++ [("populate", .bool query.populate)]

theorem keys_sent (query : FindQuery) : Keyed.keys query.sent =
    ["top", "skip"] ++ (if query.sortBy.isSome then ["sortBy"] else [])
      ++ (if query.filter.isEmpty then [] else ["filterBy"]) ++ ["populate"] := by
  unfold sent Json.optional
  cases query.sortBy <;> cases query.filter.isEmpty <;> rfl

theorem keys_sent_nodup (query : FindQuery) : (Keyed.keys query.sent).Nodup := by
  rw [keys_sent]
  cases query.sortBy.isSome <;> cases query.filter.isEmpty <;> decide

theorem valueAt_sent {query : FindQuery} {key : String} {value : Json}
    (h : (key, value) ∈ query.sent) : valueAt (Keyed.ofList query.sent) key = value := by
  rw [valueAt, Keyed.ofList, Keyed.get?_overlay_of_mem query.keys_sent_nodup h]
  rfl

theorem valueAt_not_sent {query : FindQuery} {key : String} (h : key ∉ Keyed.keys query.sent) :
    valueAt (Keyed.ofList query.sent) key = .null := by
  rw [valueAt, Keyed.ofList, Keyed.get?_overlay_of_not_mem h]
  rfl

theorem readCount_toNat (count : UInt64) : readCount (.int count.toNat) = .ok count := by
  have hlt : count.toNat < UInt64.size := count.toNat_lt_size
  have hle : (0 : Int) ≤ count.toNat ∧ (count.toNat : Int) < UInt64.size := by omega
  have hread : Count.ofJson (.int count.toNat) = .ok count := by
    simp only [Count.ofJson, if_pos hle]
    simp
  rw [readCount, hread]
  rfl

theorem readSort_sent (query : FindQuery) :
    readSort (valueAt (Keyed.ofList query.sent) "sortBy") = .ok query.normalized.sortBy := by
  cases hs : query.sortBy with
  | none =>
    have hnot : "sortBy" ∉ Keyed.keys query.sent := by
      rw [keys_sent, hs]
      cases query.filter.isEmpty <;> decide
    rw [valueAt_not_sent hnot]
    simp [readSort, normalized, hs]
  | some key =>
    have hm : ("sortBy", Json.str key) ∈ query.sent := by simp [sent, hs, Json.optional]
    rw [valueAt_sent hm]
    by_cases hb : Text.isBlankText key = true <;> simp [readSort, normalized, hs, hb, Option.filter]

/-- A filter reads back from its text. -/
theorem readFilter_render {filter : Members} (h : (Json.obj filter).Exact Json.Reader.maxDepth) :
    readFilter (.str (Json.obj filter).render) = .ok filter := by
  have hblank : Text.isBlankText (Json.obj filter).render = false := by
    have hbrace : Text.isBlank '\x7b' = false := by decide
    simp [Text.isBlankText, Json.render, Json.chars, hbrace]
  simp [readFilter, hblank, Json.parse?_render h]

theorem readFilter_sent {query : FindQuery}
    (h : (Json.obj query.filter).Exact Json.Reader.maxDepth) :
    readFilter (valueAt (Keyed.ofList query.sent) "filterBy") = .ok query.filter := by
  cases hf : query.filter with
  | nil =>
    have hnot : "filterBy" ∉ Keyed.keys query.sent := by
      rw [keys_sent, hf]
      cases query.sortBy.isSome <;> decide
    rw [valueAt_not_sent hnot]
    rfl
  | cons entry rest =>
    have hm : ("filterBy", Json.str (Json.obj query.filter).render) ∈ query.sent := by
      simp [sent, hf]
    rw [valueAt_sent hm, readFilter_render h, hf]

theorem toJson_eq_sent (query : FindQuery) : query.toJson = .obj (Keyed.ofList query.sent) := rfl

/-- A query reads back from its JSON form. -/
theorem ofJson_toJson {query : FindQuery} (h : (Json.obj query.filter).Exact Json.Reader.maxDepth) :
    ofJson query.toJson = .ok query.normalized := by
  have htop : readCount (valueAt (Keyed.ofList query.sent) "top") = .ok query.top := by
    have hm : ("top", Json.int query.top.toNat) ∈ query.sent := by simp [sent]
    rw [valueAt_sent hm, readCount_toNat]
  have hskip : readCount (valueAt (Keyed.ofList query.sent) "skip") = .ok query.skip := by
    have hm : ("skip", Json.int query.skip.toNat) ∈ query.sent := by simp [sent]
    rw [valueAt_sent hm, readCount_toNat]
  have hpopulate : readSwitch (valueAt (Keyed.ofList query.sent) "populate")
      = .ok query.populate := by
    have hm : ("populate", Json.bool query.populate) ∈ query.sent := by simp [sent]
    rw [valueAt_sent hm]
    rfl
  rw [toJson_eq_sent, ofJson, ofMembers, htop, hskip, readSort_sent, readFilter_sent h, hpopulate]
  rfl

/-! ## Requests for many documents -/

/-- **Find queries.** A query whose filter has at most 127 levels and no doubles reads back from
its JSON form. When a client asks for the documents of an entity with it, the store is asked for
just these, with the entity's plan of joins if the query wants them. -/
theorem getMany_roundTrip {query : FindQuery} (h : (Json.obj query.filter).Exact 127) :
    ofJson query.toJson = .ok query.normalized ∧
      ∀ (catalog : Catalog) (schema : Schema), schema ∈ catalog.entities →
        ∀ (excluded : List String) (store : Store),
          ∃ args, (Request.getMany schema query excluded).bindings = .obj args ∧
            let joins := if query.populate then schema.joins else []
            Service.run catalog .getMany schema.name args store
                = Service.outcome Page.toJson (store.find schema.name query.normalized joins) ∧
              (Service.run catalog .getMany schema.name args store).2.finds
                = store.finds ++ [⟨schema.name, query.normalized, joins⟩] := by
  have hread := ofJson_toJson h
  refine ⟨hread, ?_⟩
  intro catalog schema hm excluded store
  have hquery : Service.queryOf [("q", query.toJson)] = .ok query.normalized := by
    rw [toJson_eq_sent] at hread ⊢
    simp [Service.queryOf, Keyed.get?, hread]
  have hrun := (run_of_mem hm .getMany [("q", query.toJson)] store).trans (runOn_getMany hquery)
  refine ⟨[("q", query.toJson)], rfl, hrun, ?_⟩
  rw [hrun, outcome_store, find_finds]
  rfl

/-- A query with what is hard to carry: escapes, characters beyond the basic plane, the outermost
whole numbers, containers in each other and a blank key to sort by. -/
def sample : FindQuery where
  top := 18446744073709551615
  sortBy := some " \u2003"
  filter := [("\x01\"\\", .arr [.int (-9223372036854775808), .obj [("", .null), ("é😀", .arr [])]]),
    ("label", .obj [("$in", .arr [.str "a/b\n", .int 18446744073709551615, .bool false])])]

theorem sample_exact : (Json.obj sample.filter).Exact 127 := by
  have hinner : (Json.obj [("", .null), ("é😀", .arr [])]).Exact 125 := by
    refine .obj (by decide) ?_
    simp only [List.forall_mem_cons]
    exact ⟨.null, .arr (by simp), by simp⟩
  have hlist : (Json.arr [.str "a/b\n", .int 18446744073709551615, .bool false]).Exact 125 := by
    refine .arr ?_
    simp only [List.forall_mem_cons]
    exact ⟨.str _, .int (by decide) (by decide), .bool _, by simp⟩
  refine .obj (by decide) ?_
  simp only [sample, List.forall_mem_cons]
  refine ⟨.arr ?_, .obj (by decide) (by simpa using hlist), by simp⟩
  simp only [List.forall_mem_cons]
  exact ⟨.int (by decide) (by decide), hinner, by simp⟩

/-- The sample query arrives at the store of the sample catalog, without its blank sort key. -/
theorem getMany_sample : ofJson sample.toJson = .ok sample.normalized ∧
    sample.normalized.sortBy = none ∧
    ∃ args, (Request.getMany Schema.Sample.workflow sample []).bindings = .obj args ∧
      (Service.run Schema.Sample.catalog .getMany "Workflow" args {}).2.finds
        = [⟨"Workflow", sample.normalized, Schema.Sample.workflow.joins⟩] := by
  have hm : Schema.Sample.workflow ∈ Schema.Sample.catalog.entities := by decide
  have h := getMany_roundTrip sample_exact
  obtain ⟨args, hargs, -, hfinds⟩ := h.2 _ _ hm [] {}
  exact ⟨h.1, by decide, args, hargs, hfinds⟩

end EntityModel.FindQuery
