import EntityModel.Proofs.Decode
import EntityModel.Proofs.FindQuery.RoundTrip
import EntityModel.Proofs.FindQuery.Count
import EntityModel.Proofs.Service.Session

/-!
# Reading page by page

A client that wants all documents by a filter asks for them page by page, each page behind the
documents that it has, until one is empty. Reading notes the query and changes no document, so all
pages are cut out of the same documents: one after the other they are what is read at once.

Results:
* `Store.agrees_iff_isMatch`: which documents a filter lets through.
* `run_page`: what a request for a page is answered with.
* `Paged.reads`: what a client has read when it reached an empty page.
* `Offers.paged`: when it gets there.
* `pages_read_all`: reading page by page is reading at once.
-/
namespace EntityModel

namespace Store

/-- A document has every key of the filter at its top, with the same value. -/
def Agrees (filter document : Members) : Prop :=
  ∀ key value, (key, value) ∈ filter →
    ∃ found, Keyed.get? key document = some found ∧ found.same value = true

/-- Such documents are those that the store lets through. -/
theorem agrees_iff_isMatch {filter document : Members} :
    Agrees filter document ↔ isMatch filter document = true := by
  simp only [Agrees, isMatch, List.all_eq_true, Option.any_eq_true, Prod.forall]

instance (filter document : Members) : Decidable (Agrees filter document) :=
  decidable_of_iff _ agrees_iff_isMatch.symm

/-- The documents of a schema that agree with a filter, in order of id. -/
def agreeing (store : Store) (schema : String) (filter : Members) : List Json :=
  ((store.collection schema).filter fun entry => Agrees filter entry.2).map fun entry => .obj entry.2

theorem agreeing_eq (store : Store) (schema : String) (filter : Members) :
    store.agreeing schema filter = (store.matching schema filter).map Json.obj := by
  simp only [agreeing, matching, agrees_iff_isMatch, List.filter_map, List.map_map,
    Bool.decide_eq_true]
  rfl

/-- The page of at most `top` documents behind the first `skip`. -/
def pageAt (documents : List Json) (top skip : Nat) : Page where
  data := (documents.drop skip).take top
  count := ((documents.drop skip).take top).length.toUInt64
  totalCount := some documents.length.toUInt64

/-- A query for a page cuts this page out. -/
theorem pageOf_eq_pageAt {top skip : UInt64} (hpos : top ≠ 0) (filter : Members)
    (documents : List Members) : pageOf { top, skip, filter } documents
      = pageAt (documents.map Json.obj) top.toNat skip.toNat := by
  simp only [pageOf, pageAt, if_neg hpos, List.map_take, List.map_drop, List.length_take,
    List.length_drop, List.length_map]

end Store

namespace Service

variable {catalog : Catalog} {schema : Schema} {name : String} {filter : Members} {top skip : Nat}
  {documents : List Json} {store : Store}

/-! ## Requests -/

/-- The arguments that ask for all documents by a filter. -/
def filterArgs (filter : Members) : Args := [("q", .obj [("filterBy", .obj filter)])]

/-- The arguments that ask for at most `top` of them, behind the first `skip`. -/
def pageArgs (filter : Members) (top skip : Nat) : Args :=
  [("q", .obj [("filterBy", .obj filter), ("skip", .int skip), ("top", .int top)])]

theorem queryOf_filterArgs (filter : Members) : queryOf (filterArgs filter) = .ok { filter } := rfl

theorem queryOf_object {args members : Members} {query : FindQuery}
    (hargs : Keyed.get? "q" args = some (.obj members)) (h : FindQuery.ofMembers members = .ok query) :
    queryOf args = .ok query := by
  simp only [queryOf, hargs, FindQuery.ofJson, h]

theorem queryOf_pageArgs (filter : Members) (top skip : UInt64) :
    queryOf (pageArgs filter top.toNat skip.toNat) = .ok { top, skip, filter } := by
  refine queryOf_object rfl (FindQuery.ofMembers_eq_ok_iff.2 ⟨?_, ?_, rfl, rfl, rfl⟩)
  · exact FindQuery.readCount_toNat top
  · exact FindQuery.readCount_toNat skip

/-! ## Answers -/

/-- The store can be read, and has these documents of a schema by a filter. -/
structure Offers (schema : Schema) (filter : Members) (documents : List Json) (store : Store) :
    Prop where
  unpoisoned : store.poisoned = false
  agreeing : store.agreeing schema.name filter = documents

/-- What is read by a query, and that it is there afterwards. -/
theorem run_query (hentity : entity catalog name = .ok schema)
    (h : Offers schema filter documents store) {args : Args} {query : FindQuery}
    (hq : queryOf args = .ok query) (hf : query.filter = filter) :
    ∃ found after, found.map Json.obj = documents ∧ Offers schema filter documents after ∧
      run catalog .getMany name args store = (.ok (Store.pageOf query found).toJson, after) := by
  have hrun := (run_of_entity hentity .getMany args store).trans (runOn_getMany hq)
  have hanswer := (congrArg Prod.fst hrun).trans
    (outcome_answer Page.toJson (Store.find_answer h.unpoisoned ..))
  have hcollections : (run catalog .getMany name args store).2.collections = store.collections := by
    rw [hrun, outcome_store, Store.find_collections]
  refine ⟨store.matching schema.name filter, (run catalog .getMany name args store).2, ?_, ⟨?_, ?_⟩, ?_⟩
  · rw [← Store.agreeing_eq, h.agreeing]
  · rw [run_poisoned, h.unpoisoned]
  · rw [Store.agreeing, Store.collection_congr hcollections, ← h.agreeing, Store.agreeing]
  · rw [← hf, ← hanswer]

/-- A request for a page is answered with it. -/
theorem run_page (hentity : entity catalog name = .ok schema)
    (h : Offers schema filter documents store) (hpos : 1 ≤ top) (htop : top < UInt64.size)
    (hskip : skip < UInt64.size) : ∃ after, Offers schema filter documents after ∧
      run catalog .getMany name (pageArgs filter top skip) store
        = (.ok (Store.pageAt documents top skip).toJson, after) := by
  obtain ⟨top, rfl⟩ : ∃ count : UInt64, count.toNat = top :=
    ⟨top.toUInt64, UInt64.toNat_ofNat_of_lt' htop⟩
  obtain ⟨skip, rfl⟩ : ∃ count : UInt64, count.toNat = skip :=
    ⟨skip.toUInt64, UInt64.toNat_ofNat_of_lt' hskip⟩
  have hne : top ≠ 0 := by
    rintro rfl
    exact absurd hpos (by decide)
  obtain ⟨found, after, hfound, hafter, hrun⟩ :=
    run_query hentity h (queryOf_pageArgs filter top skip) rfl
  rw [Store.pageOf_eq_pageAt hne, hfound] at hrun
  exact ⟨after, hafter, hrun⟩

/-- A request without a page is answered with everything. -/
theorem run_filter (hentity : entity catalog name = .ok schema)
    (h : Offers schema filter documents store) : ∃ whole : Page, whole.data = documents ∧
      (run catalog .getMany name (filterArgs filter) store).1 = .ok whole.toJson := by
  obtain ⟨found, after, hfound, -, hrun⟩ := run_query hentity h (queryOf_filterArgs filter) rfl
  rw [Store.pageOf_eq_allOf rfl (.inl rfl)] at hrun
  exact ⟨Store.allOf found, hfound, congrArg Prod.fst hrun⟩

/-! ## Page by page -/

/-- A client asks for one page after the other, each behind the documents that it has, until a page
is empty. The pages begin behind the first `skip` documents, and it asks for none that begins behind
`2 ^ 64` of them or more. -/
inductive Paged (catalog : Catalog) (name : String) (filter : Members) (top : Nat) :
    Nat → Store → List Page → Store → Prop
  | last {skip : Nat} {store after : Store} {page : Page} : skip < UInt64.size →
      run catalog .getMany name (pageArgs filter top skip) store = (.ok page.toJson, after) →
      page.data = [] → Paged catalog name filter top skip store [page] after
  | next {skip : Nat} {store between after : Store} {page : Page} {pages : List Page} :
      skip < UInt64.size →
      run catalog .getMany name (pageArgs filter top skip) store = (.ok page.toJson, between) →
      page.data ≠ [] → Paged catalog name filter top (skip + top) between pages after →
      Paged catalog name filter top skip store (page :: pages) after

/-- One more page leaves what stands behind it. -/
theorem pageAt_append_drop (documents : List Json) (top skip : Nat) :
    (Store.pageAt documents top skip).data ++ documents.drop (skip + top) = documents.drop skip := by
  rw [Store.pageAt, ← List.drop_drop, List.take_append_drop]

theorem length_le_of_pageAt_nil (hpos : 1 ≤ top) (h : (Store.pageAt documents top skip).data = []) :
    documents.length ≤ skip := by
  rw [Store.pageAt, List.take_eq_nil_iff] at h
  rcases h with h | h
  · omega
  · exact List.drop_eq_nil_iff.1 h

/-- What a client has when it reached an empty page: everything behind the documents that it skipped
first, in pages that are all cut out of the same documents. -/
theorem Paged.reads (hentity : entity catalog name = .ok schema) (hpos : 1 ≤ top)
    (htop : top < UInt64.size) {pages : List Page} {after : Store}
    (h : Paged catalog name filter top skip store pages after)
    (ho : Offers schema filter documents store) :
    pages.flatMap Page.data = documents.drop skip ∧
      (∀ page ∈ pages, ∃ start, page = Store.pageAt documents top start) ∧
      ∃ n, documents.length ≤ skip + n * top ∧ skip + n * top < UInt64.size := by
  induction h with
  | @last skip store after page hskip hrun hnil =>
    obtain ⟨_, -, hpage⟩ := run_page hentity ho hpos htop hskip
    rw [hrun, Prod.mk.injEq, Except.ok.injEq] at hpage
    obtain rfl := Page.toJson_injective hpage.1
    have hlength := length_le_of_pageAt_nil hpos hnil
    refine ⟨?_, fun page hm => ⟨skip, List.mem_singleton.1 hm⟩, 0, by omega, by omega⟩
    rw [List.flatMap_singleton, hnil, List.drop_eq_nil_of_le hlength]
  | @next skip store between after page pages hskip hrun _ _ ih =>
    obtain ⟨_, hbetween, hpage⟩ := run_page hentity ho hpos htop hskip
    rw [hrun, Prod.mk.injEq, Except.ok.injEq] at hpage
    obtain rfl := Page.toJson_injective hpage.1
    obtain rfl := hpage.2
    obtain ⟨hdata, hpages, n, hlength, hfits⟩ := ih hbetween
    refine ⟨?_, ?_, n + 1, ?_, ?_⟩
    · rw [List.flatMap_cons, hdata, pageAt_append_drop]
    · intro page hm
      rcases List.mem_cons.1 hm with rfl | hm
      · exact ⟨skip, rfl⟩
      · exact hpages page hm
    · rw [Nat.succ_mul]; omega
    · rw [Nat.succ_mul]; omega

/-- A client that need not skip too many documents reaches an empty page. -/
theorem Offers.paged (hentity : entity catalog name = .ok schema) (hpos : 1 ≤ top)
    (htop : top < UInt64.size) (ho : Offers schema filter documents store) {n : Nat}
    (hlength : documents.length ≤ skip + n * top) (hfits : skip + n * top < UInt64.size) :
    ∃ pages after, Paged catalog name filter top skip store pages after := by
  induction n generalizing skip store with
  | zero =>
    have hskip : skip < UInt64.size := by omega
    obtain ⟨after, -, hrun⟩ := run_page hentity ho hpos htop hskip
    have hnil : documents.drop skip = [] := List.drop_eq_nil_of_le (by omega)
    have hdata : (Store.pageAt documents top skip).data = [] := by
      rw [Store.pageAt, hnil, List.take_nil]
    exact ⟨_, after, .last hskip hrun hdata⟩
  | succ n ih =>
    rw [Nat.succ_mul] at hlength hfits
    have hskip : skip < UInt64.size := by omega
    obtain ⟨between, hbetween, hrun⟩ := run_page hentity ho hpos htop hskip
    by_cases hdata : (Store.pageAt documents top skip).data = []
    · exact ⟨_, between, .last hskip hrun hdata⟩
    · have hlength' : documents.length ≤ skip + top + n * top := by omega
      obtain ⟨pages, after, hpages⟩ := ih hbetween hlength' (by omega)
      exact ⟨_, after, .next hskip hrun hdata hpages⟩

/-- **Paging.** A request for the documents by a filter is answered with all that agree with it. A
client that asks for them in pages of `top` reaches an empty page exactly when a multiple of `top` below
`2 ^ 64` covers them. Then its pages, one after the other, are what is read at once: no document is lost,
repeated or out of order. No page is longer than it was asked for, each counts its documents, and all tell
the number of documents that agree with the filter. -/
theorem pages_read_all (hm : schema ∈ catalog.entities)
    (hname : lookupKey name = lookupKey schema.name) (hp : store.poisoned = false) (filter : Members)
    (hpos : 1 ≤ top) (htop : top < UInt64.size) :
    let documents := store.agreeing schema.name filter
    (∃ whole : Page, whole.data = documents ∧
      (run catalog .getMany name (filterArgs filter) store).1 = .ok whole.toJson) ∧
    ((∃ pages after, Paged catalog name filter top 0 store pages after) ↔
      ∃ n, documents.length ≤ n * top ∧ n * top < UInt64.size) ∧
    ∀ pages after, Paged catalog name filter top 0 store pages after →
      pages.flatMap Page.data = documents ∧
      ∀ page ∈ pages, page.data.length ≤ top ∧ page.count.toNat = page.data.length ∧
        page.totalCount.map UInt64.toNat = some documents.length := by
  intro documents
  have hentity : entity catalog name = .ok schema := entity_eq_ok_iff.2 ⟨hm, hname.symm⟩
  have ho : Offers schema filter documents store := ⟨hp, rfl⟩
  refine ⟨run_filter hentity ho, ⟨?_, ?_⟩, ?_⟩
  · rintro ⟨pages, after, h⟩
    obtain ⟨-, -, n, hn⟩ := h.reads hentity hpos htop ho
    exact ⟨n, by simpa using hn⟩
  · rintro ⟨n, hlength, hfits⟩
    exact ho.paged hentity hpos htop (n := n) (by omega) (by omega)
  · intro pages after h
    obtain ⟨hdata, hpages, n, hlength, hfits⟩ := h.reads hentity hpos htop ho
    refine ⟨hdata, fun page hpage => ?_⟩
    obtain ⟨start, rfl⟩ := hpages page hpage
    have hle : (Store.pageAt documents top start).data.length ≤ top := List.length_take_le ..
    have htotal : documents.length < UInt64.size := by omega
    refine ⟨hle, UInt64.toNat_ofNat_of_lt' (Nat.lt_of_le_of_lt hle htop), ?_⟩
    simp only [Store.pageAt, Option.map_some, UInt64.toNat_ofNat_of_lt' htotal]

/-- Two drafts, and a workflow that is none between them. -/
def drafts : List Call :=
  [⟨.insert, "Workflow", [("doc", .obj [("label", .str "draft")])]⟩,
    ⟨.insert, "Workflow", [("doc", .obj [("label", .str "final")])]⟩,
    ⟨.insert, "Workflow", [("doc", .obj [("label", .str "draft")])]⟩]

/-- The drafts read one by one, under the name of their entity in small letters. -/
theorem pages_read_all_drafts :
    let store := (Session.ofCalls Schema.Sample.catalog drafts).store
    ∃ pages after,
      Paged Schema.Sample.catalog "workflow" [("label", .str "draft")] 1 0 store pages after ∧
      pages.flatMap Page.data = [.obj [("_id", .str "id1"), ("label", .str "draft")],
        .obj [("_id", .str "id3"), ("label", .str "draft")]] ∧
      ∀ page ∈ pages, page.data.length ≤ 1 ∧ page.count.toNat = page.data.length ∧
        page.totalCount.map UInt64.toNat = some 2 := by
  intro store
  have hm : Schema.Sample.workflow ∈ Schema.Sample.catalog.entities := by decide
  have hp : store.poisoned = false := rfl
  have hdocuments : store.agreeing "Workflow" [("label", .str "draft")]
      = [.obj [("_id", .str "id1"), ("label", .str "draft")],
        .obj [("_id", .str "id3"), ("label", .str "draft")]] := rfl
  have hname : lookupKey "workflow" = lookupKey Schema.Sample.workflow.name := by decide
  obtain ⟨-, hreaches, hreads⟩ := pages_read_all hm hname hp [("label", .str "draft")] (Nat.le_refl 1)
    (by decide)
  have hlength : (store.agreeing "Workflow" [("label", .str "draft")]).length ≤ 2 * 1 :=
    Nat.le_of_eq (congrArg List.length hdocuments)
  obtain ⟨pages, after, hpages⟩ := hreaches.2 ⟨2, hlength, by decide⟩
  have hall := hreads pages after hpages
  exact ⟨pages, after, hpages, hall.1.trans hdocuments, hall.2⟩

end Service

end EntityModel
