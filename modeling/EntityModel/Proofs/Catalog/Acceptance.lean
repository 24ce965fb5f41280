import EntityModel.Proofs.Catalog.Naming
import EntityModel.Proofs.Schema.Embedding

/-!
# Which schemas make a catalog

A set of frozen schemas is *coherent* when it meets three conditions that speak of no order: keys
differ, each type name is claimed for one thing, and references stay inside the set. Claims are
told by where they come from, shapes and references by the chain of fields that leads to them.

Results:
* `mem_allClaims`: the claims that the check collects are exactly these.
* `claims_pairwise_iff`, `linkMessages_eq_nil_iff`: two parts of the check, without order.
* `ofSchemas_ok_iff_coherent`: a catalog is made of exactly the coherent sets, so the order of the
  schemas does not matter.
-/
namespace EntityModel

/-- The claims of a set of schemas, each told by where it comes from. Two claims from different
places differ, unless they share a shape or two schemas have one name. -/
inductive Claim.Of (schemas : List Schema) : Claim → Prop
  | own {schema : Schema} : schema ∈ schemas → Of schemas ⟨schema.name, .schema schema.name⟩
  | input {entity : Schema} : entity ∈ schemas → entity.isEntity = true →
      Of schemas ⟨entity.name ++ "Input", .generated entity.name⟩
  | results {entity : Schema} : entity ∈ schemas → entity.isEntity = true →
      Of schemas ⟨entity.name ++ "QueryResults", .generated entity.name⟩
  | shape {entity inner target : Schema} {chain : List Field} {field : Field} (side : Side) :
      entity ∈ schemas → entity.isEntity = true → entity.EmbedsAt chain inner field target →
      Of schemas ⟨inner.shapeName field ++ side.ending,
        .shape (Schema.chainPath entity.name (chain ++ [field])) target side⟩

/-- What a set of schemas must meet to make a catalog. -/
structure Coherent (schemas : List Schema) : Prop where
  /-- No two names are equal up to case. -/
  keys : KeysDiffer schemas
  /-- A name is claimed once, or all claims on it are for one side of one shape. -/
  claims : ∀ a b, Claim.Of schemas a → Claim.Of schemas b → a.typeName = b.typeName →
    a = b ∨ ∃ path path' target side,
      a.claimant = .shape path target side ∧ b.claimant = .shape path' target side
  /-- A reference leads to a schema of the set. -/
  references : ∀ schema ∈ schemas, ∀ chain inner field target,
    schema.Embeds (fun _ => True) chain inner → field ∈ inner.fields →
      field.type = .reference target → target ∈ schemas

/-! ## Claims -/

theorem mem_entityClaims {entity : Schema} (he : entity.Frozen) {claim : Claim} :
    claim ∈ entity.entityClaims ↔
      claim = ⟨entity.name ++ "Input", .generated entity.name⟩ ∨
      claim = ⟨entity.name ++ "QueryResults", .generated entity.name⟩ ∨
      ∃ chain inner field target, ∃ side : Side, entity.EmbedsAt chain inner field target ∧
        claim = ⟨inner.shapeName field ++ side.ending,
          .shape (Schema.chainPath entity.name (chain ++ [field])) target side⟩ := by
  rw [Schema.entityClaims, List.mem_append, Schema.mem_embeddedClaims he]
  simp [Schema.inputName, Schema.resultsName, or_assoc]

/-- The claims that the check collects are those of the set. -/
theorem mem_allClaims {schemas : List Schema} (frozen : ∀ schema ∈ schemas, schema.Frozen)
    {claim : Claim} : claim ∈ allClaims schemas ↔ Claim.Of schemas claim := by
  rw [allClaims, List.mem_append, List.mem_map, List.mem_flatMap]
  constructor
  · intro h
    rcases h with ⟨schema, hs, rfl⟩ | ⟨entity, he, hc⟩
    · exact .own hs
    · obtain ⟨hm, hi⟩ := List.mem_filter.1 he
      rcases (mem_entityClaims (frozen entity hm)).1 hc with rfl | rfl | ⟨_, _, _, _, side, h, rfl⟩
      · exact .input hm hi
      · exact .results hm hi
      · exact .shape side hm hi h
  · intro h
    have entity {e : Schema} (hm : e ∈ schemas) (hi : e.isEntity = true) (hc : claim ∈ e.entityClaims) :
        ∃ e ∈ schemas.filter (·.isEntity), claim ∈ e.entityClaims :=
      ⟨e, List.mem_filter.2 ⟨hm, hi⟩, hc⟩
    cases h with
    | own hs => exact .inl ⟨_, hs, rfl⟩
    | input hm hi => exact .inr (entity hm hi ((mem_entityClaims (frozen _ hm)).2 (.inl rfl)))
    | results hm hi =>
      exact .inr (entity hm hi ((mem_entityClaims (frozen _ hm)).2 (.inr (.inl rfl))))
    | shape side hm hi h =>
      exact .inr (entity hm hi ((mem_entityClaims (frozen _ hm)).2
        (.inr (.inr ⟨_, _, _, _, side, h, rfl⟩))))

/-- Claims at different positions differ, or share what they claim. -/
def Claim.Apart (a b : Claim) : Prop := a = b → a.claimant.sharesWith b.claimant = true

theorem Claim.apart_shape {claim other : Claim} {path : String} {target : Schema} {side : Side}
    (h : claim.claimant = .shape path target side) : claim.Apart other := by
  intro he
  rw [← he, h]
  simp [Claimant.sharesWith]

/-- A claim of an entity is a generated one of its own, or one on a shape. -/
theorem claimant_of_mem_entityClaims {entity : Schema} (he : entity.Frozen) {claim : Claim}
    (h : claim ∈ entity.entityClaims) : claim.claimant = .generated entity.name ∨
      ∃ path target side, claim.claimant = .shape path target side := by
  rcases (mem_entityClaims he).1 h with rfl | rfl | ⟨_, _, _, _, _, -, rfl⟩
  · exact .inl rfl
  · exact .inl rfl
  · exact .inr ⟨_, _, _, rfl⟩

theorem entityClaims_apart {entity : Schema} (he : entity.Frozen) :
    entity.entityClaims.Pairwise Claim.Apart := by
  have hshape : ∀ claim ∈ entity.embeddedClaims entity.name,
      ∃ path target side, claim.claimant = .shape path target side := by
    intro claim hc
    obtain ⟨_, _, _, _, _, -, rfl⟩ := (Schema.mem_embeddedClaims he).1 hc
    exact ⟨_, _, _, rfl⟩
  have hshapes : (entity.embeddedClaims entity.name).Pairwise Claim.Apart := by
    refine List.Pairwise.imp_of_mem (R := fun _ _ => True) (fun {a b} ha _ _ => ?_)
      (List.pairwise_of_forall fun _ _ => trivial)
    obtain ⟨_, _, _, h⟩ := hshape a ha
    exact Claim.apart_shape h
  have hgenerated {name : String} : ∀ claim ∈ entity.embeddedClaims entity.name,
      Claim.Apart ⟨name, .generated entity.name⟩ claim := by
    intro claim hc heq
    obtain ⟨_, _, _, h⟩ := hshape claim hc
    rw [← heq] at h
    cases h
  have hnames : Claim.Apart ⟨entity.inputName, .generated entity.name⟩
      ⟨entity.resultsName, .generated entity.name⟩ := by
    intro heq
    simp [Schema.inputName, Schema.resultsName] at heq
  rw [Schema.entityClaims, List.cons_append, List.cons_append, List.nil_append,
    List.pairwise_cons, List.pairwise_cons]
  refine ⟨?_, hgenerated, hshapes⟩
  intro claim hc
  rcases List.mem_cons.1 hc with rfl | hc
  · exact hnames
  · exact hgenerated claim hc

theorem name_ne_of_key_ne {a b : Schema} (h : lookupKey a.name ≠ lookupKey b.name) :
    a.name ≠ b.name :=
  fun he => h (congrArg lookupKey he)

theorem allClaims_apart {schemas : List Schema} (frozen : ∀ schema ∈ schemas, schema.Frozen)
    (hk : KeysDiffer schemas) : (allClaims schemas).Pairwise Claim.Apart := by
  have hm {entity : Schema} (h : entity ∈ schemas.filter (·.isEntity)) : entity.Frozen :=
    frozen entity (List.mem_filter.1 h).1
  rw [allClaims, List.pairwise_append, List.pairwise_map, List.pairwise_flatMap]
  refine ⟨?_, ⟨?_, ?_⟩, ?_⟩
  · refine hk.imp fun {a b} h he => ?_
    exact absurd (congrArg Claim.typeName he) (name_ne_of_key_ne h)
  · intro entity he
    exact entityClaims_apart (hm he)
  · refine (hk.sublist List.filter_sublist).imp_of_mem fun {a b} ha hb h x hx y hy => ?_
    rcases claimant_of_mem_entityClaims (hm ha) hx with hx | ⟨_, _, _, hx⟩
    · intro he
      rcases claimant_of_mem_entityClaims (hm hb) hy with hy | ⟨_, _, _, hy⟩
      · rw [he, hy] at hx
        injection hx with hname
        exact absurd hname.symm (name_ne_of_key_ne h)
      · rw [he, hy] at hx
        cases hx
    · exact Claim.apart_shape hx
  · intro a ha b hb he
    obtain ⟨schema, -, rfl⟩ := List.mem_map.1 ha
    obtain ⟨entity, hentity, hb⟩ := List.mem_flatMap.1 hb
    rcases claimant_of_mem_entityClaims (hm hentity) hb with hb | ⟨_, _, _, hb⟩
    · rw [← he] at hb; cases hb
    · rw [← he] at hb; cases hb

/-- Comparing claims two by two in order is comparing all claims of the set. -/
theorem claims_pairwise_iff {schemas : List Schema} (frozen : ∀ schema ∈ schemas, schema.Frozen)
    (hk : KeysDiffer schemas) : (allClaims schemas).Pairwise Claim.Compatible ↔
      ∀ a b, Claim.Of schemas a → Claim.Of schemas b → a.typeName = b.typeName →
        a = b ∨ ∃ path path' target side,
          a.claimant = .shape path target side ∧ b.claimant = .shape path' target side := by
  constructor
  · intro h a b ha hb hn
    by_cases he : a = b
    · exact .inl he
    · right
      have hall : ∀ x ∈ allClaims schemas, ∀ y ∈ allClaims schemas, x ≠ y → x.Compatible y :=
        List.Pairwise.forall_of_forall_of_flip (fun _ _ hne => absurd rfl hne)
          (h.imp fun {x y} hc (_ : x ≠ y) => hc) (h.imp fun {x y} hc (_ : y ≠ x) => hc.symm)
      exact Claimant.sharesWith_eq_true_iff.1
        (hall a ((mem_allClaims frozen).2 ha) b ((mem_allClaims frozen).2 hb) he hn)
  · intro h
    refine (allClaims_apart frozen hk).imp_of_mem fun {a b} ha hb hapart hn => ?_
    rcases h a b ((mem_allClaims frozen).1 ha) ((mem_allClaims frozen).1 hb) hn with he | hs
    · exact hapart he
    · exact Claimant.sharesWith_eq_true_iff.2 hs

/-! ## References -/

theorem registeredAs?_eq_some_iff {schemas : List Schema} (hk : KeysDiffer schemas) {name : String}
    {schema : Schema} : registeredAs? schemas name = some schema ↔
      schema ∈ schemas ∧ lookupKey schema.name = lookupKey name := by
  rw [registeredAs?, hk.reverse.find?_eq_some_iff, List.mem_reverse]

theorem Link.messages_eq_nil_iff {schemas : List Schema} (hk : KeysDiffer schemas) (link : Link) :
    link.messages schemas = [] ↔ link.target ∈ schemas := by
  unfold messages
  cases h : registeredAs? schemas link.target.name with
  | none =>
    simp only [List.cons_ne_self, false_iff]
    intro hm
    rw [(registeredAs?_eq_some_iff hk).2 ⟨hm, rfl⟩] at h
    cases h
  | some found =>
    have hfound := (registeredAs?_eq_some_iff hk).1 h
    by_cases he : found = link.target
    · simp only [he, if_true, true_iff]
      exact he ▸ hfound.1
    · simp only [he, if_false, List.cons_ne_self, false_iff]
      intro hm
      rw [(registeredAs?_eq_some_iff hk).2 ⟨hm, rfl⟩] at h
      exact he (Option.some.inj h).symm

theorem linkMessages_eq_nil_iff {schemas : List Schema} (hk : KeysDiffer schemas)
    (schema : Schema) : schema.linkMessages schemas = [] ↔
      ∀ chain inner field target, schema.Embeds (fun _ => True) chain inner →
        field ∈ inner.fields → field.type = .reference target → target ∈ schemas := by
  rw [Schema.linkMessages, List.flatMap_eq_nil_iff]
  simp only [Link.messages_eq_nil_iff hk]
  constructor
  · intro h chain inner field target hc hf ht
    exact h ⟨(chain ++ [field]).map (·.name), target⟩
      (Schema.mem_links.2 ⟨chain, inner, field, hc, hf, ht, rfl⟩)
  · intro h link hl
    obtain ⟨chain, inner, field, hc, hf, ht, -⟩ := Schema.mem_links.1 hl
    exact h chain inner field link.target hc hf ht

/-! ## Catalogs -/

theorem coherent_iff {schemas : List Schema} (frozen : ∀ schema ∈ schemas, schema.Frozen) :
    (catalogIssues schemas).isEmpty = true ↔ Coherent schemas := by
  rw [catalogIssues_isEmpty_iff]
  constructor
  · intro ⟨hk, hc, hl⟩
    exact ⟨hk, (claims_pairwise_iff frozen hk).1 hc,
      fun schema hs => (linkMessages_eq_nil_iff hk schema).1 (hl schema hs)⟩
  · intro ⟨hk, hc, hr⟩
    exact ⟨hk, (claims_pairwise_iff frozen hk).2 hc,
      fun schema hs => (linkMessages_eq_nil_iff hk schema).2 (hr schema hs)⟩

theorem Catalog.coherent (catalog : Catalog)
    (frozen : ∀ schema ∈ catalog.schemas, schema.Frozen) : Coherent catalog.schemas :=
  (coherent_iff frozen).1 catalog.sound

theorem Catalog.keysDiffer (catalog : Catalog) : KeysDiffer catalog.schemas :=
  ((catalogIssues_isEmpty_iff _).1 catalog.sound).1

theorem Catalog.keysDiffer_entities (catalog : Catalog) : KeysDiffer catalog.entities :=
  catalog.keysDiffer.sublist List.filter_sublist

/-- Entities of one name are one entity. -/
theorem Catalog.entity_eq_of_name_eq {catalog : Catalog} {a b : Schema} (ha : a ∈ catalog.entities)
    (hb : b ∈ catalog.entities) (h : a.name = b.name) : a = b :=
  catalog.keysDiffer_entities.eq_of_key_eq ha hb (congrArg lookupKey h)

/-- A catalog finds the one schema that has the name up to case. -/
theorem Catalog.find_eq_ok_iff {catalog : Catalog} {name : String} {schema : Schema} :
    catalog.find name = .ok schema ↔
      schema ∈ catalog.schemas ∧ lookupKey schema.name = lookupKey name := by
  rw [← catalog.keysDiffer.find?_eq_some_iff, find]
  cases catalog.schemas.find? fun other => lookupKey other.name == lookupKey name <;> simp

/-- A catalog finds each of its schemas under its name. -/
theorem Catalog.find_of_mem {catalog : Catalog} {schema : Schema} (h : schema ∈ catalog.schemas) :
    catalog.find schema.name = .ok schema :=
  find_eq_ok_iff.2 ⟨h, rfl⟩

theorem Catalog.exists_ofSchemas_iff (schemas : List Schema) :
    (∃ catalog, ofSchemas schemas = .ok catalog) ↔ (catalogIssues schemas).isEmpty = true := by
  unfold ofSchemas
  by_cases h : (catalogIssues schemas).isEmpty = true <;> simp [h]

/-- The claims of a set are those of any set with the same schemas. -/
theorem Claim.Of.mono {schemas schemas' : List Schema} (h : ∀ schema ∈ schemas, schema ∈ schemas')
    {claim : Claim} (hc : Claim.Of schemas claim) : Claim.Of schemas' claim := by
  cases hc with
  | own hs => exact .own (h _ hs)
  | input hm hi => exact .input (h _ hm) hi
  | results hm hi => exact .results (h _ hm) hi
  | shape side hm hi he => exact .shape side (h _ hm) hi he

theorem Coherent.perm {schemas schemas' : List Schema} (hp : schemas.Perm schemas')
    (h : Coherent schemas) : Coherent schemas' where
  keys := hp.pairwise h.keys fun hne => hne.symm
  claims a b ha hb := h.claims a b (ha.mono fun _ => hp.mem_iff.2) (hb.mono fun _ => hp.mem_iff.2)
  references schema hs chain inner field target hc hf ht :=
    hp.mem_iff.1 (h.references schema (hp.mem_iff.2 hs) chain inner field target hc hf ht)

/-- **Acceptance.** A catalog is made of a set of frozen schemas exactly when the set is coherent;
in particular whatever the order of the schemas. -/
theorem Catalog.ofSchemas_ok_iff_coherent {schemas : List Schema}
    (frozen : ∀ schema ∈ schemas, schema.Frozen) :
    ((∃ catalog, ofSchemas schemas = .ok catalog) ↔ Coherent schemas) ∧
      ∀ schemas', schemas.Perm schemas' →
        ((∃ catalog, ofSchemas schemas = .ok catalog) ↔
          ∃ catalog, ofSchemas schemas' = .ok catalog) := by
  have hiff {set : List Schema} (hf : ∀ schema ∈ set, schema.Frozen) :
      (∃ catalog, ofSchemas set = .ok catalog) ↔ Coherent set :=
    (exists_ofSchemas_iff set).trans (coherent_iff hf)
  refine ⟨hiff frozen, ?_⟩
  intro schemas' hp
  have frozen' : ∀ schema ∈ schemas', schema.Frozen :=
    fun schema hs => frozen schema (hp.mem_iff.2 hs)
  rw [hiff frozen, hiff frozen']
  exact ⟨fun h => h.perm hp, fun h => h.perm hp.symm⟩

/-- The sample schemas as a catalog. -/
def Schema.Sample.catalog : Catalog := ⟨schemas, by decide⟩

/-- The sample schemas are coherent, and make a catalog in the other order too. -/
theorem Catalog.ofSchemas_sample : Coherent Schema.Sample.schemas ∧
    ∃ catalog, ofSchemas [Schema.Sample.workflow, Schema.Sample.category] = .ok catalog := by
  have h := Catalog.ofSchemas_ok_iff_coherent Schema.Sample.schemas_frozen
  have hok : ∃ catalog, ofSchemas Schema.Sample.schemas = .ok catalog :=
    (exists_ofSchemas_iff _).2 (by decide)
  exact ⟨h.1.1 hok, (h.2 _ (.swap _ _ _)).1 hok⟩

end EntityModel
